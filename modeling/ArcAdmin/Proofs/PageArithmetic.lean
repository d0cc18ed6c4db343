import ArcAdmin.MachineInt
import ArcAdmin.Services.AuditLogs
import ArcAdmin.Services.Users

/-!
# Page arithmetic

The page and the page size come from the query string and may be any `i64`. `users::list` clamps
the page to the last one before it multiplies; `audit_logs::list` clamps the page size only, so
that `(page - 1) * page_size` overflows for a large page: the request panics, or PostgreSQL
receives a negative `OFFSET`.

* **`auditBounds_sound_iff`** — the audit listing computes its bounds exactly if and only if it has
  a cursor, or the offset fits;
* **`userBounds_sound_iff`** — the user listing does for every page, as long as the number of users
  and the page size fit together;
* **`auditListIn_eq`**, **`userOffset_eq`** — exact bounds are those of the listings as modelled over
  natural numbers.
-/

namespace ArcAdmin.PageArithmetic

open MachineInt
open ReadCommitted
open Paging (newestFirst below)

/-- What PostgreSQL receives for `LIMIT` and `OFFSET`. -/
structure Bounds where
  limit : Int
  offset : Int
deriving DecidableEq, Repr

/-- `page.unwrap_or(1).max(1)`. -/
def pageOf (page : Option Int) : Int := max (page.getD 1) 1

/-- `page_size.unwrap_or(20).clamp(1, 100)`. -/
def pageSizeOf (pageSize : Option Int) : Int := max 1 (min (pageSize.getD 20) 100)

/-- `(page - 1) * page_size`. -/
def offsetOf (overflow : Overflow) (page pageSize : Int) : Option Int := do
  let before ← result 64 overflow (page - 1)
  result 64 overflow (before * pageSize)

/-- The arithmetic of `services::audit_logs::list` and `repositories::audit_logs::list`. -/
def auditBounds (overflow : Overflow) (query : AuditLogQuery) : Option Bounds := do
  let page := pageOf query.page
  let pageSize := pageSizeOf query.pageSize
  let limit ← result 64 overflow (pageSize + 1)
  let offset ← (if query.cursor.isSome then some 0 else offsetOf overflow page pageSize)
  return { limit, offset }

/-- The arithmetic of `services::users::list` and `repositories::users::list`. -/
def userBounds (overflow : Overflow) (query : PageQuery) (total : Int) : Option Bounds := do
  let requestedPage := pageOf query.page
  let pageSize := pageSizeOf query.pageSize
  let sum ← result 64 overflow (total + pageSize)
  let sum ← result 64 overflow (sum - 1)
  let lastPage := max (sum.tdiv pageSize) 1
  let page := min requestedPage lastPage
  let offset ← offsetOf overflow page pageSize
  return { limit := pageSize, offset }

/-- Whatever the build does on overflow, the bounds are computed without one, and PostgreSQL
accepts them. -/
def Sound (bounds : Overflow → Option Bounds) : Prop :=
  ∃ b, (∀ overflow, bounds overflow = some b) ∧ 0 ≤ b.limit ∧ 0 ≤ b.offset

/-- **A build that checks** and stops has no sound bounds. -/
theorem not_sound_of_panics {bounds : Overflow → Option Bounds} (h : bounds .panics = none) :
    ¬ Sound bounds := by
  rintro ⟨b, hb, -⟩
  have hsome := hb .panics
  rw [h] at hsome
  cases hsome

theorem one_le_pageOf (page : Option Int) : 1 ≤ pageOf page := le_max_right _ _

theorem pageSizeOf_bounds (pageSize : Option Int) :
    1 ≤ pageSizeOf pageSize ∧ pageSizeOf pageSize ≤ 100 := by
  unfold pageSizeOf
  omega

section Offset

variable {page pageSize : Int} (hpage : 1 ≤ page) (hsize : 1 ≤ pageSize)

include hpage hsize

theorem offset_nonneg : 0 ≤ (page - 1) * pageSize :=
  Int.mul_nonneg (by omega) (by omega)

theorem before_le_offset : page - 1 ≤ (page - 1) * pageSize := by
  have := Int.mul_le_mul_of_nonneg_left hsize (show 0 ≤ page - 1 by omega)
  linarith

theorem offsetOf_exact (h : (page - 1) * pageSize < 2 ^ 63) (overflow : Overflow) :
    offsetOf overflow page pageSize = some ((page - 1) * pageSize) := by
  have hle := before_le_offset hpage hsize
  have hbefore : Fits 64 (page - 1) := fits_of_nonneg (by omega) (by simpa using hle.trans_lt h)
  have hoffset : Fits 64 ((page - 1) * pageSize) :=
    fits_of_nonneg (offset_nonneg hpage hsize) (by simpa using h)
  unfold offsetOf
  rw [result_of_fits (by decide) hbefore, Option.bind_eq_bind, Option.bind_some,
    result_of_fits (by decide) hoffset]

omit hpage hsize in
/-- **An offset that does not fit** is not computed by a build that checks. -/
theorem offsetOf_panics (h : ¬ (page - 1) * pageSize < 2 ^ 63) :
    offsetOf .panics page pageSize = none := by
  unfold offsetOf
  rw [Option.bind_eq_bind, Option.bind_eq_none_iff]
  intro before hbefore
  obtain ⟨-, rfl⟩ := fits_of_result_panics hbefore
  exact result_panics_of_le (by simpa using h)

end Offset

/-! ## The audit listing

Nothing bounds the page of the query.
-/

/-- The offset of the query, if it has to be computed, fits. -/
def AuditPageFits (query : AuditLogQuery) : Prop :=
  query.cursor.isSome = true ∨ (pageOf query.page - 1) * pageSizeOf query.pageSize < 2 ^ 63

theorem limit_fits (pageSize : Option Int) : Fits 64 (pageSizeOf pageSize + 1) := by
  have := pageSizeOf_bounds pageSize
  exact fits_of_nonneg (by omega) (by norm_num; omega)

theorem auditBounds_exact {query : AuditLogQuery} (h : AuditPageFits query) (overflow : Overflow) :
    auditBounds overflow query = some
      { limit := pageSizeOf query.pageSize + 1
        offset := if query.cursor.isSome then 0
          else (pageOf query.page - 1) * pageSizeOf query.pageSize } := by
  have hpage := one_le_pageOf query.page
  have hsize := (pageSizeOf_bounds query.pageSize).1
  have hlimit := result_of_fits (by decide) (limit_fits query.pageSize) overflow
  by_cases hcursor : query.cursor.isSome = true
  · simp [auditBounds, hlimit, hcursor]
  · have hoffset := offsetOf_exact hpage hsize (h.resolve_left hcursor) overflow
    simp [auditBounds, hlimit, hcursor, hoffset]

/-- **The audit listing** computes its bounds exactly if and only if it has a cursor, or its offset
fits. -/
theorem auditBounds_sound_iff (query : AuditLogQuery) :
    Sound (auditBounds · query) ↔ AuditPageFits query := by
  have hpage := one_le_pageOf query.page
  have hsize := (pageSizeOf_bounds query.pageSize).1
  constructor
  · intro hsound
    by_contra hfits
    unfold AuditPageFits at hfits
    rw [not_or] at hfits
    have hlimit := result_of_fits (by decide) (limit_fits query.pageSize) .panics
    have hoffset := offsetOf_panics hfits.2
    apply not_sound_of_panics _ hsound
    simp [auditBounds, hlimit, hfits.1, hoffset]
  · intro h
    refine ⟨_, fun overflow => auditBounds_exact h overflow, ?_, ?_⟩
    · show 0 ≤ pageSizeOf query.pageSize + 1
      omega
    · show 0 ≤ if query.cursor.isSome then 0 else _
      split
      · exact Int.le_refl 0
      · exact offset_nonneg hpage hsize

/-! ## The user listing

The page is bounded by the number of pages, so the offset is at most the number of rows.
-/

/-- The number of users and the page size fit together. -/
def UserTotalFits (query : PageQuery) (total : Nat) : Prop :=
  (total : Int) + pageSizeOf query.pageSize < 2 ^ 63

/-- The page that is read: the last one, if the query asks for a later one. -/
def clampedPage (query : PageQuery) (total : Nat) : Int :=
  min (pageOf query.page)
    (max (((total : Int) + pageSizeOf query.pageSize - 1) / pageSizeOf query.pageSize) 1)

theorem one_le_clampedPage (query : PageQuery) (total : Nat) : 1 ≤ clampedPage query total :=
  le_min (one_le_pageOf query.page) (le_max_right _ _)

/-- **The page is clamped before the multiplication**: the rows before it exist. -/
theorem clamped_offset_le (query : PageQuery) (total : Nat) :
    (clampedPage query total - 1) * pageSizeOf query.pageSize ≤ total := by
  have hsize := (pageSizeOf_bounds query.pageSize).1
  unfold clampedPage
  generalize pageSizeOf query.pageSize = k at hsize ⊢
  have hlast := Int.ediv_mul_le ((total : Int) + k - 1) (show k ≠ 0 by omega)
  generalize ((total : Int) + k - 1) / k = last at hlast ⊢
  have hle : min (pageOf query.page) (max last 1) - 1 ≤ max last 1 - 1 := by omega
  have hmul := Int.mul_le_mul_of_nonneg_right hle (show 0 ≤ k by omega)
  apply hmul.trans
  rcases le_total last 1 with hone | hone
  · rw [max_eq_right hone]
    simp
  · rw [max_eq_left hone, Int.sub_mul, Int.one_mul]
    omega

theorem userBounds_exact {query : PageQuery} {total : Nat} (h : UserTotalFits query total)
    (overflow : Overflow) :
    userBounds overflow query total = some
      { limit := pageSizeOf query.pageSize
        offset := (clampedPage query total - 1) * pageSizeOf query.pageSize } := by
  have hsize := (pageSizeOf_bounds query.pageSize).1
  have hle := clamped_offset_le query total
  have hpage := one_le_clampedPage query total
  unfold UserTotalFits at h
  have hsum : Fits 64 ((total : Int) + pageSizeOf query.pageSize) :=
    fits_of_nonneg (by omega) (by simpa using h)
  have hpred : Fits 64 ((total : Int) + pageSizeOf query.pageSize - 1) :=
    fits_of_nonneg (by omega) (by norm_num at h ⊢; omega)
  have hdiv : ((total : Int) + pageSizeOf query.pageSize - 1).tdiv (pageSizeOf query.pageSize) =
      ((total : Int) + pageSizeOf query.pageSize - 1) / pageSizeOf query.pageSize :=
    Int.tdiv_eq_ediv_of_nonneg (by omega)
  unfold clampedPage at hpage hle ⊢
  unfold userBounds
  simp only [result_of_fits (by decide : 0 < 64) hsum, result_of_fits (by decide : 0 < 64) hpred,
    hdiv, Option.bind_eq_bind, Option.bind_some]
  rw [offsetOf_exact hpage hsize (by omega)]
  rfl

/-- **The user listing** computes its bounds exactly if and only if the number of users and the
page size fit together, whatever page the query asks for. -/
theorem userBounds_sound_iff (query : PageQuery) (total : Nat) :
    Sound (userBounds · query total) ↔ UserTotalFits query total := by
  have hsize := (pageSizeOf_bounds query.pageSize).1
  constructor
  · intro hsound
    by_contra hfits
    have hsum : result 64 .panics ((total : Int) + pageSizeOf query.pageSize) = none :=
      result_panics_of_le (by simpa [UserTotalFits] using hfits)
    apply not_sound_of_panics _ hsound
    simp [userBounds, hsum]
  · intro h
    refine ⟨_, fun overflow => userBounds_exact h overflow, ?_, ?_⟩
    · show 0 ≤ pageSizeOf query.pageSize
      omega
    · exact offset_nonneg (one_le_clampedPage query total) hsize

/-! ## The listings over natural numbers

Exact bounds are the ones that the listings use in the rest of the development.
-/

theorem pageOf_toNat_sub_one (page : Option Int) :
    (((pageOf page).toNat - 1 : Nat) : Int) = pageOf page - 1 := by
  have := one_le_pageOf page
  omega

/-- **`repositories::audit_logs::list`** reads the rows between exact bounds. -/
theorem auditListIn_eq (sql : Sql) (s : Snap) (actor : ActorContext)
    (keyword action : Option String) (query : AuditLogQuery) (cursor : Option (Int × Nat))
    (hcursor : cursor.isSome = query.cursor.isSome) {b : Bounds} {overflow : Overflow}
    (hfits : AuditPageFits query) (hb : auditBounds overflow query = some b) :
    Repositories.AuditLogs.listIn sql s actor keyword action (pageOf query.page).toNat
        (pageSizeOf query.pageSize).toNat cursor =
      (((newestFirst Repositories.AuditLogs.sortKey
          ((Repositories.AuditLogs.selected sql s actor keyword action).filter
            (below Repositories.AuditLogs.sortKey (cursor.map toLex)))).drop b.offset.toNat).take
        b.limit.toNat).map (Repositories.AuditLogs.listed sql s) := by
  rw [auditBounds_exact hfits overflow] at hb
  obtain rfl := Option.some.inj hb
  have hsize := pageSizeOf_bounds query.pageSize
  have hlimit : (pageSizeOf query.pageSize + 1).toNat = (pageSizeOf query.pageSize).toNat + 1 := by
    omega
  have hoffset : (if query.cursor.isSome then (0 : Int)
        else (pageOf query.page - 1) * pageSizeOf query.pageSize).toNat =
      if cursor.isSome then 0
        else ((pageOf query.page).toNat - 1) * (pageSizeOf query.pageSize).toNat := by
    rw [hcursor]
    split
    · rfl
    · rw [← pageOf_toNat_sub_one, Int.toNat_mul (by omega) (by omega), Int.toNat_natCast]
  show _ = ((List.drop (Int.toNat (ite _ _ _)) _).take (Int.toNat (_ + 1))).map _
  rw [hoffset, hlimit]
  rfl

/-- **`repositories::users::list`** skips as many rows as exact bounds say. -/
theorem userOffset_eq {query : PageQuery} {total : Nat} {b : Bounds} {overflow : Overflow}
    (hfits : UserTotalFits query total) (hb : userBounds overflow query total = some b) :
    b.limit.toNat = (pageSizeOf query.pageSize).toNat ∧
      b.offset.toNat =
        ((clampedPage query total).toNat - 1) * (pageSizeOf query.pageSize).toNat := by
  rw [userBounds_exact hfits overflow] at hb
  obtain rfl := Option.some.inj hb
  have hpage := one_le_clampedPage query total
  have hsize := (pageSizeOf_bounds query.pageSize).1
  refine ⟨rfl, ?_⟩
  have hbefore : ((clampedPage query total).toNat - 1 : Nat) = (clampedPage query total - 1).toNat := by
    omega
  rw [hbefore, ← Int.toNat_mul (by omega) (by omega)]

/-! ## Both listings

Put together, in terms of what the two queries contain.
-/

/-- **Page arithmetic**: both listings compute their bounds without overflow, and never a negative
`OFFSET`, if and only if the page of the audit query, which nothing clamps, is small enough, and
the users can be counted together with one more page of them. -/
theorem pageArithmetic (audit : AuditLogQuery) (users : PageQuery) (total : Nat) :
    (Sound (auditBounds · audit) ∧ Sound (userBounds · users total)) ↔
      AuditPageFits audit ∧ UserTotalFits users total :=
  and_congr (auditBounds_sound_iff audit) (userBounds_sound_iff users total)

/-- `?page=9223372036854775807&pageSize=100`. -/
def greatestPage : AuditLogQuery where
  page := some (2 ^ 63 - 1)
  pageSize := some 100
  keyword := none
  action := none
  cursor := none

/-- **The greatest page of the audit listing** stops a build that checks; in one that does not,
the `OFFSET` is negative. -/
theorem greatestPage_overflows :
    Fits 64 (greatestPage.page.getD 1) ∧ auditBounds .panics greatestPage = none ∧
      auditBounds .wraps greatestPage = some { limit := 101, offset := -200 } ∧
      ¬ Sound (auditBounds · greatestPage) := by
  have hnone : auditBounds .panics greatestPage = none := by decide +kernel
  exact ⟨by decide, hnone, by decide +kernel, not_sound_of_panics hnone⟩

end ArcAdmin.PageArithmetic
