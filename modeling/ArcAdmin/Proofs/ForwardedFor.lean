import ArcAdmin.ClientIp

/-!
# The forwarded chain

By the rules of HTTP, several header lines of one field are one list. `Chain` says what the lines
contain; `resolve_client_ip` reads the first of them.

* **`nearest_eq`** — the walk finds the rightmost address that is no trusted proxy;
* **`resolveClientIp_eq`** — of the first line;
* **`resolveClientIp_nearest`** — which is the rightmost one of the whole list exactly if the later
  lines have none, or have the same.
-/

namespace ArcAdmin

open Net

namespace Network

variable {net : Network} {trustedProxyCidrs : List net.IpNet}

/-- The rightmost address that is no trusted proxy. -/
def rightmost (net : Network) (trustedProxyCidrs : List net.IpNet) (ips : List IpAddr) :
    Option IpAddr :=
  (ips.filter fun ip => !net.isTrustedProxy ip trustedProxyCidrs).getLast?

/-- **What the walk finds**, from a trusted address. -/
theorem nearest_eq {peerIp : IpAddr} (hpeer : net.isTrustedProxy peerIp trustedProxyCidrs = true)
    (ips : List IpAddr) :
    net.nearest trustedProxyCidrs peerIp ips.reverse =
      (net.rightmost trustedProxyCidrs ips).getD (ips.head?.getD peerIp) := by
  have hwalk : ∀ (candidate : IpAddr) (rest : List IpAddr),
      net.nearest trustedProxyCidrs candidate rest =
        ((candidate :: rest).find? fun ip => !net.isTrustedProxy ip trustedProxyCidrs).getD
          ((candidate :: rest).getLast (List.cons_ne_nil _ _)) := by
    intro candidate rest
    induction rest generalizing candidate with
    | nil =>
      unfold nearest
      cases hcandidate : net.isTrustedProxy candidate trustedProxyCidrs with
      | false => simp [hcandidate]
      | true => simp [hcandidate]
    | cons ip rest ih =>
      unfold nearest
      cases hcandidate : net.isTrustedProxy candidate trustedProxyCidrs with
      | false => simp [hcandidate]
      | true =>
        rw [ih]
        simp [hcandidate]
  rw [hwalk, List.find?_cons_of_neg (by simp [hpeer])]
  have hfind : (ips.reverse.find? fun ip => !net.isTrustedProxy ip trustedProxyCidrs) =
      net.rightmost trustedProxyCidrs ips := by
    unfold rightmost
    rw [← List.head?_filter, List.filter_reverse, List.head?_reverse]
  have hlast : (peerIp :: ips.reverse).getLast (List.cons_ne_nil _ _) = ips.head?.getD peerIp := by
    cases ips with
    | nil => rfl
    | cons ip ips => simp
  rw [hfind, hlast]

/-! ## The header lines

How several lines are one list, and what the function makes of the first of them.
-/

/-- The value of the field that several lines make together. -/
def combined (texts : List String) : String :=
  String.ofList (List.intercalate [','] (texts.map String.toList))

/-- **The lines are well formed**, with these addresses, and within the limits together. -/
structure Chain (net : Network) (headers : List net.HeaderValue) (lines : List (List IpAddr)) :
    Prop where
  parsed : ∃ texts, headers.mapM net.toStr = some texts ∧
    texts.mapM parseForwardedFor = some lines ∧
    byteLen (combined texts) ≤ maxForwardedForLength
  hops : lines.flatten.length ≤ maxForwardedForHops

theorem mapM_cons_eq_some {α β : Type} {f : α → Option β} {a : α} {as : List α} {bs : List β} :
    (a :: as).mapM f = some bs ↔ ∃ b bs', f a = some b ∧ as.mapM f = some bs' ∧ bs = b :: bs' := by
  rw [List.mapM_cons]
  cases f a <;> cases as.mapM f <;> simp [eq_comm]

theorem mapM_append_eq {α β : Type} {f : α → Option β} {as bs : List α} {cs ds : List β}
    (ha : as.mapM f = some cs) (hb : bs.mapM f = some ds) : (as ++ bs).mapM f = some (cs ++ ds) := by
  rw [List.mapM_append, ha, hb]
  rfl

/-- **The combined value has the addresses of the lines, one line after the other.** -/
theorem parseForwardedFor_combined {texts : List String} {lines : List (List IpAddr)}
    (hne : texts ≠ []) (h : texts.mapM parseForwardedFor = some lines) :
    parseForwardedFor (combined texts) = some lines.flatten := by
  induction texts generalizing lines with
  | nil => exact absurd rfl hne
  | cons text texts ih =>
    obtain ⟨line, lines', hline, hlines, rfl⟩ := mapM_cons_eq_some.1 h
    cases texts with
    | nil =>
      cases hlines
      have hone : combined [text] = text := by
        unfold combined
        simp
      rw [hone, hline]
      simp
    | cons text' texts =>
      have hrest := ih (List.cons_ne_nil _ _) hlines
      have htext : (combined (text :: text' :: texts)).toList =
          text.toList ++ ',' :: (combined (text' :: texts)).toList := by
        unfold combined
        simp [List.intercalate]
      unfold parseForwardedFor at hline hrest ⊢
      rw [htext, List.splitOn_append_cons_self]
      exact mapM_append_eq hline hrest

theorem byteLen_combined {text : String} {texts : List String} :
    byteLen text ≤ byteLen (combined (text :: texts)) := by
  have hprefix : ∃ rest, combined (text :: texts) = text ++ rest := by
    cases texts with
    | nil => exact ⟨"", by simp [combined]⟩
    | cons text' texts =>
      refine ⟨"," ++ combined (text' :: texts), String.toList_inj.1 ?_⟩
      unfold combined
      simp [List.intercalate, String.toList_append]
  obtain ⟨rest, hrest⟩ := hprefix
  unfold byteLen
  rw [hrest, String.utf8ByteSize_append]
  omega

theorem parseForwardedFor_ne_nil {text : String} {ips : List IpAddr}
    (h : parseForwardedFor text = some ips) : ips ≠ [] := by
  rintro rfl
  unfold parseForwardedFor at h
  cases hsplit : text.toList.splitOn ',' with
  | nil => exact absurd hsplit (List.splitOn_ne_nil _ _)
  | cons value values =>
    rw [hsplit] at h
    obtain ⟨_, _, -, -, hcons⟩ := mapM_cons_eq_some.1 h
    cases hcons

/-- **`resolve_client_ip` finds the rightmost address of the first line.** -/
theorem resolveClientIp_eq {peerIp : IpAddr} {headers : List net.HeaderValue}
    {lines : List (List IpAddr)} (hchain : Chain net headers lines)
    (hpeer : net.isTrustedProxy (canonicalIp peerIp) trustedProxyCidrs = true) :
    net.resolveClientIp peerIp headers trustedProxyCidrs =
      (net.rightmost trustedProxyCidrs (lines.head?.getD [])).getD
        (lines.flatten.head?.getD (canonicalIp peerIp)) := by
  obtain ⟨texts, htexts, hlines, hbytes⟩ := hchain.parsed
  unfold resolveClientIp
  simp only [hpeer, Bool.not_true, Bool.false_eq_true, if_false]
  cases headers with
  | nil =>
    cases htexts
    cases hlines
    rfl
  | cons header headers =>
    obtain ⟨text, texts', htext, -, rfl⟩ := mapM_cons_eq_some.1 htexts
    obtain ⟨line, lines', hline, -, rfl⟩ := mapM_cons_eq_some.1 hlines
    have hlen : byteLen text ≤ maxForwardedForLength := Nat.le_trans byteLen_combined hbytes
    have hne := parseForwardedFor_ne_nil hline
    have hhops : line.length ≤ maxForwardedForHops := by
      have hall := hchain.hops
      rw [List.flatten_cons, List.length_append] at hall
      omega
    have hget : ((net.get (header :: headers)).bind net.toStr).filter
        (byteLen · ≤ maxForwardedForLength) = some text := by
      show (net.toStr header).filter _ = _
      rw [htext]
      exact Option.filter_some_pos (by simpa using hlen)
    have hforwarded : (parseForwardedFor text).filter (fun values =>
        !values.isEmpty && values.length ≤ maxForwardedForHops) = some line := by
      rw [hline]
      exact Option.filter_some_pos (by simp [hne, hhops])
    have hhead : (line :: lines').flatten.head? = line.head? := by
      cases line with
      | nil => exact absurd rfl hne
      | cons ip ips => rfl
    simp only [hget, hforwarded, nearest_eq hpeer, List.head?_cons, Option.getD_some, hhead]

/-! ## The whole list

The address that the whole list stands for, and when the first line leads to the same one.
-/

/-- **The address cannot be spoofed**: it is the peer, or the rightmost address of the whole list
that is no trusted proxy, whatever stands to its left; and the leftmost one where all are trusted. -/
structure Unspoofed (net : Network) (peerIp : IpAddr) (headers : List net.HeaderValue)
    (trustedProxyCidrs : List net.IpNet) (ips : List IpAddr) : Prop where
  peer : net.isTrustedProxy (canonicalIp peerIp) trustedProxyCidrs = false →
    net.resolveClientIp peerIp headers trustedProxyCidrs = canonicalIp peerIp
  untrusted : net.isTrustedProxy (canonicalIp peerIp) trustedProxyCidrs = true →
    ∀ left ip right, ips = left ++ ip :: right →
      net.isTrustedProxy ip trustedProxyCidrs = false →
      (∀ proxy ∈ right, net.isTrustedProxy proxy trustedProxyCidrs = true) →
      net.resolveClientIp peerIp headers trustedProxyCidrs = ip
  trusted : net.isTrustedProxy (canonicalIp peerIp) trustedProxyCidrs = true →
    (∀ proxy ∈ ips, net.isTrustedProxy proxy trustedProxyCidrs = true) →
    net.resolveClientIp peerIp headers trustedProxyCidrs = ips.head?.getD (canonicalIp peerIp)

/-- The lines after the first one have no address but trusted proxies, or their rightmost one is
that of the first line. -/
def Covered (net : Network) (trustedProxyCidrs : List net.IpNet) (lines : List (List IpAddr)) :
    Prop :=
  net.rightmost trustedProxyCidrs lines.tail.flatten = none ∨
    net.rightmost trustedProxyCidrs lines.tail.flatten =
      net.rightmost trustedProxyCidrs (lines.head?.getD [])

theorem rightmost_eq_none {ips : List IpAddr} :
    net.rightmost trustedProxyCidrs ips = none ↔
      ∀ proxy ∈ ips, net.isTrustedProxy proxy trustedProxyCidrs = true := by
  unfold rightmost
  rw [List.getLast?_eq_none_iff, List.filter_eq_nil_iff]
  simp

theorem rightmost_append (left right : List IpAddr) :
    net.rightmost trustedProxyCidrs (left ++ right) =
      (net.rightmost trustedProxyCidrs right).or (net.rightmost trustedProxyCidrs left) := by
  unfold rightmost
  rw [List.filter_append, List.getLast?_append]

theorem rightmost_eq_some {ips : List IpAddr} {ip : IpAddr} :
    net.rightmost trustedProxyCidrs ips = some ip ↔ ∃ left right, ips = left ++ ip :: right ∧
      net.isTrustedProxy ip trustedProxyCidrs = false ∧
      ∀ proxy ∈ right, net.isTrustedProxy proxy trustedProxyCidrs = true := by
  constructor
  · intro h
    induction ips with
    | nil => cases h
    | cons a ips ih =>
      cases hrest : net.rightmost trustedProxyCidrs ips with
      | some b =>
        have hsame : net.rightmost trustedProxyCidrs (a :: ips) = some b := by
          rw [← List.singleton_append, rightmost_append, hrest]
          rfl
        rw [hsame] at h
        obtain ⟨left, right, rfl, hip, hright⟩ := ih (by rw [hrest, h])
        exact ⟨a :: left, right, rfl, hip, hright⟩
      | none =>
        have hsame : net.rightmost trustedProxyCidrs (a :: ips) =
            net.rightmost trustedProxyCidrs [a] := by
          rw [← List.singleton_append, rightmost_append, hrest]
          rfl
        rw [hsame] at h
        cases hb : net.isTrustedProxy a trustedProxyCidrs with
        | true => simp [rightmost, hb] at h
        | false =>
          have ha : a = ip := by simpa [rightmost, hb] using h
          subst ha
          exact ⟨[], ips, rfl, hb, rightmost_eq_none.1 hrest⟩
  · rintro ⟨left, right, rfl, hip, hright⟩
    rw [← List.singleton_append, rightmost_append, rightmost_append, rightmost_eq_none.2 hright]
    simp [rightmost, hip]

/-- The walk over the whole list, as the three parts of `Unspoofed`. -/
theorem unspoofed_iff {peerIp : IpAddr} {headers : List net.HeaderValue} {ips : List IpAddr}
    (hpeer : net.isTrustedProxy (canonicalIp peerIp) trustedProxyCidrs = true) :
    Unspoofed net peerIp headers trustedProxyCidrs ips ↔
      net.resolveClientIp peerIp headers trustedProxyCidrs =
        (net.rightmost trustedProxyCidrs ips).getD (ips.head?.getD (canonicalIp peerIp)) := by
  constructor
  · intro h
    cases hright : net.rightmost trustedProxyCidrs ips with
    | none => exact h.trusted hpeer (rightmost_eq_none.1 hright)
    | some ip =>
      obtain ⟨left, right, hips, hip, hall⟩ := rightmost_eq_some.1 hright
      exact h.untrusted hpeer left ip right hips hip hall
  · intro h
    refine ⟨fun hnot => ?_, fun _ left ip right hips hip hall => ?_, fun _ hall => ?_⟩
    · rw [hpeer] at hnot
      cases hnot
    · rw [h, rightmost_eq_some.2 ⟨left, right, hips, hip, hall⟩]
      rfl
    · rw [h, rightmost_eq_none.2 hall]
      rfl

theorem Chain.head_trusted {headers : List net.HeaderValue} {lines : List (List IpAddr)}
    {ip : IpAddr} (hchain : Chain net headers lines) (hlater : ip ∈ lines.tail.flatten) :
    ∃ first, lines.flatten.head? = some first ∧ first ∈ lines.head?.getD [] := by
  obtain ⟨texts, -, hlines, -⟩ := hchain.parsed
  cases lines with
  | nil => cases hlater
  | cons line lines =>
    cases texts with
    | nil => cases hlines
    | cons text texts =>
      obtain ⟨line', lines', hline, -, heq⟩ := mapM_cons_eq_some.1 hlines
      cases heq
      cases line with
      | nil => exact absurd rfl (parseForwardedFor_ne_nil hline)
      | cons first rest => exact ⟨first, rfl, List.mem_cons_self⟩

theorem rightmost_lines (lines : List (List IpAddr)) :
    net.rightmost trustedProxyCidrs lines.flatten =
      (net.rightmost trustedProxyCidrs lines.tail.flatten).or
        (net.rightmost trustedProxyCidrs (lines.head?.getD [])) := by
  cases lines with
  | nil => rfl
  | cons line lines => exact rightmost_append line lines.flatten

/-- Where the first line speaks for the later ones, it is as if they were one. -/
theorem Covered.unspoofed {peerIp : IpAddr} {headers : List net.HeaderValue}
    {lines : List (List IpAddr)} (hchain : Chain net headers lines)
    (hpeer : net.isTrustedProxy (canonicalIp peerIp) trustedProxyCidrs = true)
    (hcovered : Covered net trustedProxyCidrs lines) :
    Unspoofed net peerIp headers trustedProxyCidrs lines.flatten := by
  rw [unspoofed_iff hpeer, resolveClientIp_eq hchain hpeer, rightmost_lines]
  rcases hcovered with hnone | hsame
  · rw [hnone]
    rfl
  · rw [hsame, Option.or_self]

/-- Otherwise the walk ends elsewhere: at another untrusted address, or at a trusted one. -/
theorem Unspoofed.covered {peerIp : IpAddr} {headers : List net.HeaderValue}
    {lines : List (List IpAddr)} (hchain : Chain net headers lines)
    (hpeer : net.isTrustedProxy (canonicalIp peerIp) trustedProxyCidrs = true)
    (h : Unspoofed net peerIp headers trustedProxyCidrs lines.flatten) :
    Covered net trustedProxyCidrs lines := by
  rw [unspoofed_iff hpeer, resolveClientIp_eq hchain hpeer, rightmost_lines] at h
  unfold Covered
  cases hlater : net.rightmost trustedProxyCidrs lines.tail.flatten with
  | none => exact .inl rfl
  | some ip =>
    refine .inr ?_
    rw [hlater] at h
    cases hfirst : net.rightmost trustedProxyCidrs (lines.head?.getD []) with
    | some ip' =>
      rw [hfirst] at h
      exact congrArg some h.symm
    | none =>
      -- the walk over the first line ends at a trusted address
      obtain ⟨left, right, hsplit, hip, -⟩ := rightmost_eq_some.1 hlater
      have hin : ip ∈ lines.tail.flatten := by
        rw [hsplit]
        simp
      obtain ⟨first, hhead, hmem⟩ := hchain.head_trusted hin
      rw [hfirst, hhead] at h
      have hsame : first = ip := h
      have htrusted := rightmost_eq_none.1 hfirst first hmem
      rw [hsame, hip] at htrusted
      cases htrusted

/-- **The address cannot be spoofed exactly if** the peer is no trusted proxy, or the first line
speaks for the later ones. And then nothing to the left of the address matters, however the list is
split into lines. -/
theorem resolveClientIp_nearest {peerIp : IpAddr} {headers : List net.HeaderValue}
    {lines : List (List IpAddr)} (hchain : Chain net headers lines) :
    (Unspoofed net peerIp headers trustedProxyCidrs lines.flatten ↔
      net.isTrustedProxy (canonicalIp peerIp) trustedProxyCidrs = false ∨
        Covered net trustedProxyCidrs lines) ∧
    ∀ headers' lines', Chain net headers' lines' → Covered net trustedProxyCidrs lines →
      Covered net trustedProxyCidrs lines' → ∀ left left' ip right,
      lines.flatten = left ++ ip :: right → lines'.flatten = left' ++ ip :: right →
      net.isTrustedProxy ip trustedProxyCidrs = false →
      (∀ proxy ∈ right, net.isTrustedProxy proxy trustedProxyCidrs = true) →
      net.resolveClientIp peerIp headers trustedProxyCidrs =
        net.resolveClientIp peerIp headers' trustedProxyCidrs := by
  -- a peer that is no proxy is the client, whatever it sends
  have huntrusted : ∀ headers : List net.HeaderValue,
      net.isTrustedProxy (canonicalIp peerIp) trustedProxyCidrs = false →
      net.resolveClientIp peerIp headers trustedProxyCidrs = canonicalIp peerIp := by
    intro headers hpeer
    unfold resolveClientIp
    simp [hpeer]
  constructor
  · cases hpeer : net.isTrustedProxy (canonicalIp peerIp) trustedProxyCidrs with
    | false =>
      refine ⟨fun _ => .inl rfl, fun _ => ⟨huntrusted headers, ?_, ?_⟩⟩
      · intro htrusted
        rw [hpeer] at htrusted
        cases htrusted
      · intro htrusted
        rw [hpeer] at htrusted
        cases htrusted
    | true =>
      refine ⟨fun h => .inr (h.covered hchain hpeer), fun h => ?_⟩
      rcases h with hfalse | hcovered
      · cases hfalse
      · exact hcovered.unspoofed hchain hpeer
  · intro headers' lines' hchain' hcovered hcovered' left left' ip right hips hips' hip hright
    cases hpeer : net.isTrustedProxy (canonicalIp peerIp) trustedProxyCidrs with
    | false => rw [huntrusted headers hpeer, huntrusted headers' hpeer]
    | true =>
      -- both results are the nearest address that is no proxy
      have h := (hcovered.unspoofed hchain hpeer).untrusted hpeer left ip right hips hip hright
      have h' := (hcovered'.unspoofed hchain' hpeer).untrusted hpeer left' ip right hips' hip hright
      rw [h, h']

/-! ## A sample network

A proxy that appends to the line it gets, and one that adds a line of its own.
-/

/-- The networks are given by the first octet, and every header value is a text. -/
def sample : Network where
  HeaderValue := String
  IpNet := UInt8
  toStr := some
  contains
    | octet, .v4 ip => ip.a == octet
    | _, .v6 _ => false

def proxy : IpAddr := .v4 ⟨10, 2, 0, 5⟩

/-- One line, as a proxy writes it that appends to the line it gets. -/
theorem resolveClientIp_nearest_sample :
    Unspoofed sample proxy ["198.51.100.20, 203.0.113.9, 10.1.0.4"] [(10 : UInt8)]
      [.v4 ⟨198, 51, 100, 20⟩, .v4 ⟨203, 0, 113, 9⟩, .v4 ⟨10, 1, 0, 4⟩] := by
  have hchain : Chain sample ["198.51.100.20, 203.0.113.9, 10.1.0.4"]
      [[.v4 ⟨198, 51, 100, 20⟩, .v4 ⟨203, 0, 113, 9⟩, .v4 ⟨10, 1, 0, 4⟩]] :=
    ⟨⟨["198.51.100.20, 203.0.113.9, 10.1.0.4"], rfl, by decide +kernel, by decide +kernel⟩,
      by decide⟩
  exact (resolveClientIp_nearest hchain).1.2 (.inr (.inl rfl))

/-- **A client's own header line wins** over the line that its proxy adds. -/
theorem resolveClientIp_spoofed :
    Chain sample ["198.51.100.20", "203.0.113.9"]
        [[.v4 ⟨198, 51, 100, 20⟩], [.v4 ⟨203, 0, 113, 9⟩]] ∧
      ¬Unspoofed sample proxy ["198.51.100.20", "203.0.113.9"] [(10 : UInt8)]
        [.v4 ⟨198, 51, 100, 20⟩, .v4 ⟨203, 0, 113, 9⟩] := by
  refine ⟨⟨⟨["198.51.100.20", "203.0.113.9"], rfl, by decide +kernel, by decide +kernel⟩,
    by decide⟩, fun h => ?_⟩
  have hip := h.untrusted (by decide) [.v4 ⟨198, 51, 100, 20⟩] (.v4 ⟨203, 0, 113, 9⟩) [] rfl
    (by decide) (fun _ hin => by cases hin)
  have hspoofed : sample.resolveClientIp proxy ["198.51.100.20", "203.0.113.9"] [(10 : UInt8)] =
      .v4 ⟨198, 51, 100, 20⟩ := by decide +kernel
  rw [hspoofed] at hip
  cases hip

end Network

end ArcAdmin
