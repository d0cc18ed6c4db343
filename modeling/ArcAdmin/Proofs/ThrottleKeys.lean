import ArcAdmin.Services.Auth
import ArcAdmin.Sample
import ArcAdmin.Net.Address

/-!
# Throttle keys

Failed logins are counted under three keys: the account, the address, and the two together. The
third one joins a user name with an address, and both may contain the character between them.

* **`key_dimension`** — keys of two dimensions are different;
* **`throttleKeys_separate`** — two requests are counted apart except where one user name is the
  other one with the front of an IPv6 address.
-/

namespace ArcAdmin

open Net
open Services.Auth

/-- What the failures are counted by. -/
inductive Dimension where
  | account
  | sourceIp
  | accountIp
deriving DecidableEq

namespace Dimension

def ofAccount : Dimension → Bool
  | account => true
  | sourceIp => false
  | accountIp => true

def ofAddress : Dimension → Bool
  | account => false
  | sourceIp => true
  | accountIp => true

/-- The text that `LoginThrottleKeys::new` hashes, for a user name in lower case. -/
def text (username : String) (clientIp : IpAddr) : Dimension → String
  | account => "account:" ++ username
  | sourceIp => "source_ip:" ++ clientIp.text
  | accountIp => "account_ip:" ++ username ++ ":" ++ clientIp.text

/-- The key of a request in this dimension. -/
def key (env : External) (username : String) (clientIp : IpAddr) (d : Dimension) : String :=
  let keys := throttleKeys env username clientIp.text
  match d with
  | account => keys.account
  | sourceIp => keys.sourceIp
  | accountIp => keys.accountIp

theorem key_eq (env : External) (username : String) (clientIp : IpAddr) (d : Dimension) :
    d.key env username clientIp = env.tokenHash (d.text (toAsciiLowercase username) clientIp) := by
  cases d <;> rfl

end Dimension

/-- The keys of two requests are equal only in one dimension, where the requests agree in what the
dimension contains. -/
def Separate (env : External) (u₁ : String) (a₁ : IpAddr) (u₂ : String) (a₂ : IpAddr) : Prop :=
  ∀ d₁ d₂ : Dimension, d₁.key env u₁ a₁ = d₂.key env u₂ a₂ →
    d₁ = d₂ ∧ (d₁.ofAccount = true → toAsciiLowercase u₁ = toAsciiLowercase u₂) ∧
      (d₁.ofAddress = true → a₁ = a₂)

/-- The second name is the first one with the front of the first address, and the second address is
the rest. -/
def Shifted (u₁ : String) (a₁ : IpAddr) (u₂ : String) (a₂ : IpAddr) : Prop :=
  ∃ front, u₂ = u₁ ++ ":" ++ front ∧ a₁.text = front ++ ":" ++ a₂.text

/-! ## The texts

The text of a dimension begins with a word and a colon, so texts of two dimensions differ. Within
one dimension only the joined text is ambiguous.
-/

/-- Texts of two dimensions differ in the word before the first colon. -/
theorem Dimension.text_dimension {d₁ d₂ : Dimension} {u₁ u₂ : String} {a₁ a₂ : IpAddr}
    (h : d₁.text u₁ a₁ = d₂.text u₂ a₂) : d₁ = d₂ := by
  have hword : ∀ d : Dimension, ∀ u a, ∃ rest, (d.text u a).toList =
      (match d with
        | .account => "account:".toList
        | .sourceIp => "source_ip:".toList
        | .accountIp => "account_ip:".toList) ++ rest := by
    intro d u a
    cases d with
    | account => exact ⟨_, String.toList_append⟩
    | sourceIp => exact ⟨_, String.toList_append⟩
    | accountIp =>
      refine ⟨u.toList ++ ":".toList ++ a.text.toList, ?_⟩
      simp only [text, String.toList_append, List.append_assoc]
  obtain ⟨rest₁, h₁⟩ := hword d₁ u₁ a₁
  obtain ⟨rest₂, h₂⟩ := hword d₂ u₂ a₂
  rw [h, h₂] at h₁
  have htake := congrArg (fun cs => cs.take 8) h₁
  revert htake
  cases d₁ <;> cases d₂ <;> simp

/-- Two joined texts are equal if the parts are, or if the one name goes on where the other one
ends. -/
theorem joined_eq {u₁ t₁ u₂ t₂ : String} (h : u₁ ++ ":" ++ t₁ = u₂ ++ ":" ++ t₂) :
    (u₁ = u₂ ∧ t₁ = t₂) ∨ (∃ front, u₂ = u₁ ++ ":" ++ front ∧ t₁ = front ++ ":" ++ t₂) ∨
      ∃ front, u₁ = u₂ ++ ":" ++ front ∧ t₂ = front ++ ":" ++ t₁ := by
  -- The longer name begins with the shorter one, and goes on with the colon that follows it in the
  -- other text.
  have hlist : ∀ (a b c d : List Char), a ++ b = c ++ d → a ≠ c → a.length ≤ c.length →
      b.head? = some ':' → d.head? = some ':' →
      ∃ front, c = a ++ ':' :: front ∧ b = ':' :: (front ++ d) := by
    intro a b c d hab hne hlen hb hd
    rcases List.append_eq_append_iff.1 hab with ⟨x, hc, hbx⟩ | ⟨x, ha, -⟩
    · cases x with
      | nil => exact absurd (by simpa using hc.symm) hne
      | cons e x =>
        have he : e = ':' := by
          rw [hbx] at hb
          exact Option.some.inj hb
        subst he
        exact ⟨x, hc, hbx⟩
    · have hx : x = [] := by
        have hsame := congrArg List.length ha
        rw [List.length_append] at hsame
        exact List.eq_nil_of_length_eq_zero (by omega)
      rw [hx, List.append_nil] at ha
      exact absurd ha hne
  -- as lists of characters
  have hchars : u₁.toList ++ ':' :: t₁.toList = u₂.toList ++ ':' :: t₂.toList := by
    have hh := congrArg String.toList h
    simpa [String.toList_append] using hh
  by_cases hu : u₁ = u₂
  · subst hu
    have ht : ':' :: t₁.toList = ':' :: t₂.toList := List.append_cancel_left hchars
    exact .inl ⟨rfl, String.toList_inj.1 (List.cons.inj ht).2⟩
  · refine .inr ?_
    have hne : u₁.toList ≠ u₂.toList := fun hsame => hu (String.toList_inj.1 hsame)
    rcases Nat.le_total u₁.toList.length u₂.toList.length with hlen | hlen
    · obtain ⟨front, hu₂, ht₁⟩ := hlist _ _ _ _ hchars hne hlen rfl rfl
      refine .inl ⟨String.ofList front, String.toList_inj.1 ?_, String.toList_inj.1 ?_⟩
      · simp [String.toList_append, hu₂]
      · simpa [String.toList_append] using (List.cons.inj ht₁).2
    · obtain ⟨front, hu₁, ht₂⟩ := hlist _ _ _ _ hchars.symm hne.symm hlen rfl rfl
      refine .inr ⟨String.ofList front, String.toList_inj.1 ?_, String.toList_inj.1 ?_⟩
      · simp [String.toList_append, hu₁]
      · simpa [String.toList_append] using (List.cons.inj ht₂).2

/-- A shifted pair has one text under the account and the address. -/
theorem Shifted.text_eq {u₁ u₂ : String} {a₁ a₂ : IpAddr} (h : Shifted u₁ a₁ u₂ a₂) :
    Dimension.accountIp.text u₁ a₁ = Dimension.accountIp.text u₂ a₂ := by
  obtain ⟨front, rfl, ha⟩ := h
  unfold Dimension.text
  simp only [ha, String.append_assoc]

/-- The first address of a shifted pair is no IPv4 address, for its text has a colon. -/
theorem Shifted.colon {u₁ u₂ : String} {a₁ a₂ : IpAddr} (h : Shifted u₁ a₁ u₂ a₂) :
    ':' ∈ a₁.chars := by
  obtain ⟨front, -, ha⟩ := h
  have hchars := congrArg String.toList ha
  unfold IpAddr.text at hchars
  rw [String.toList_ofList] at hchars
  rw [hchars]
  simp [String.toList_append]

theorem Shifted.name_ne {u₁ u₂ : String} {a₁ a₂ : IpAddr} (h : Shifted u₁ a₁ u₂ a₂) : u₁ ≠ u₂ := by
  obtain ⟨front, rfl, -⟩ := h
  intro hsame
  have hlen := congrArg String.length hsame
  simp only [String.length_append] at hlen
  have hcolon : ":".length = 1 := rfl
  omega

/-- **The throttle keys of two requests are separate exactly if** neither user name is the other one
with the front of an address whose rest is the other address. -/
theorem throttleKeys_separate {env : External} (hhash : Function.Injective env.tokenHash)
    (u₁ : String) (a₁ : IpAddr) (u₂ : String) (a₂ : IpAddr) :
    Separate env u₁ a₁ u₂ a₂ ↔
      ¬Shifted (toAsciiLowercase u₁) a₁ (toAsciiLowercase u₂) a₂ ∧
        ¬Shifted (toAsciiLowercase u₂) a₂ (toAsciiLowercase u₁) a₁ := by
  constructor
  · intro hsep
    -- equal texts give equal keys, which only one name may have
    have hnot : Dimension.accountIp.text (toAsciiLowercase u₁) a₁ =
        Dimension.accountIp.text (toAsciiLowercase u₂) a₂ →
        toAsciiLowercase u₁ = toAsciiLowercase u₂ := by
      intro htext
      have hkey : Dimension.accountIp.key env u₁ a₁ = Dimension.accountIp.key env u₂ a₂ := by
        rw [Dimension.key_eq, Dimension.key_eq, htext]
      exact (hsep _ _ hkey).2.1 rfl
    constructor
    · intro hshift
      exact hshift.name_ne (hnot hshift.text_eq)
    · intro hshift
      exact hshift.name_ne (hnot hshift.text_eq.symm).symm
  · rintro ⟨hnot₁, hnot₂⟩ d₁ d₂ hkey
    rw [Dimension.key_eq, Dimension.key_eq] at hkey
    -- the hash is injective, so equal keys are equal texts
    have htext := hhash hkey
    have hd := Dimension.text_dimension htext
    subst hd
    refine ⟨rfl, ?_⟩
    cases d₁ with
    | account =>
      refine ⟨fun _ => (String.append_right_inj _).1 htext, ?_⟩
      rintro ⟨⟩
    | sourceIp =>
      refine ⟨?_, fun _ => IpAddr.text_injective ((String.append_right_inj _).1 htext)⟩
      rintro ⟨⟩
    -- the one dimension of two parts: the colon between them may be shifted
    | accountIp =>
      have hjoined : toAsciiLowercase u₁ ++ ":" ++ a₁.text = toAsciiLowercase u₂ ++ ":" ++ a₂.text := by
        unfold Dimension.text at htext
        simp only [String.append_assoc] at htext ⊢
        exact (String.append_right_inj _).1 htext
      rcases joined_eq hjoined with ⟨hu, ha⟩ | hshift | hshift
      · exact ⟨fun _ => hu, fun _ => IpAddr.text_injective ha⟩
      · exact absurd hshift hnot₁
      · exact absurd hshift hnot₂

/-- The address `10.0.0.n`. -/
def local4 (n : UInt8) : IpAddr := .v4 ⟨10, 0, 0, n⟩

theorem sampleHash_injective : Function.Injective Sample.external.tokenHash := fun _ _ h => h

/-- Two accounts behind two IPv4 addresses. -/
theorem throttleKeys_separate_sample :
    Separate Sample.external "Clerk" (local4 1) "clerk:1" (local4 2) := by
  refine (throttleKeys_separate sampleHash_injective _ _ _ _).2 ⟨?_, ?_⟩
  · intro h
    exact absurd h.colon (by decide)
  · intro h
    exact absurd h.colon (by decide)

/-- `1:2::3` and `2::3`. -/
def address₁ : IpAddr := .v6 ⟨[1, 2, 0, 0, 0, 0, 0, 3], rfl⟩

def address₂ : IpAddr := .v6 ⟨[2, 0, 0, 0, 0, 0, 0, 3], rfl⟩

/-- **Failures on one account count against another one**, which is tried from another address. -/
theorem throttleKeys_shifted :
    ¬Separate Sample.external "a" address₁ "a:1" address₂ := by
  intro h
  have hkey : Dimension.accountIp.key Sample.external "a" address₁ =
      Dimension.accountIp.key Sample.external "a:1" address₂ := by
    decide +kernel
  exact absurd ((h _ _ hkey).2.1 rfl) (by decide +kernel)

end ArcAdmin
