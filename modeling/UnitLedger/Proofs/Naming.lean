import Mathlib.Data.List.TakeWhile
import UnitLedger.Proofs.Accepted

/-!
  UnitLedger.Proofs.Naming — every way to write a name has one stored form.

  What a caller writes as a name may have blanks around it. Trimming takes off all of them and nothing
  else: a text is its trimmed part between two blank parts (`trim_split`), and only one part of it
  without blank ends lies so (`trim_of_split`). Hence:
  - `normalize?_padded`: blanks around a text do not change its stored form.
  - `normalize?_stored`: a stored form is its own, so `Name.IsStored` says what a stored name is.
  - `validate_padded`, `validate_request`: the same of the two owners in a request for a transfer.
-/

namespace UnitLedger.Text

def AllBlank (s : String) : Prop := ∀ c ∈ s.toList, isBlank c = true

instance (s : String) : Decidable (AllBlank s) := List.decidableBAll (isBlank · = true) s.toList

structure NoBlankEnds (s : String) : Prop where
  first : ∀ c ∈ s.toList.head?, isBlank c = false
  last : ∀ c ∈ s.toList.getLast?, isBlank c = false

/-! ## Blanks around a text -/

section Trim

variable {a b cs : List Char}

theorem trimEnd_append (hb : ∀ c ∈ b, isBlank c = true) : trimEnd (cs ++ b) = trimEnd cs := by
  unfold trimEnd
  rw [List.reverse_append, List.dropWhile_append_of_pos]
  intro c hc
  exact hb c (List.mem_reverse.mp hc)

/-- Blanks around a text are taken off. -/
theorem trim_padded (ha : ∀ c ∈ a, isBlank c = true) (hb : ∀ c ∈ b, isBlank c = true) :
    trim (a ++ cs ++ b) = trim cs := by
  unfold trim
  rw [List.append_assoc, List.dropWhile_append_of_pos ha, List.dropWhile_append]
  split
  · -- Nothing but blanks stands before `b`, so that all of it goes from the front.
    rename_i hnil
    rw [List.isEmpty_iff.mp hnil, List.dropWhile_eq_nil_iff.mpr hb]
  · exact trimEnd_append hb

theorem trimEnd_split (cs : List Char) :
    ∃ b, (∀ c ∈ b, isBlank c = true) ∧ cs = trimEnd cs ++ b := by
  refine ⟨(cs.reverse.takeWhile isBlank).reverse, ?_, ?_⟩
  · intro c hc
    exact List.mem_takeWhile_imp (List.mem_reverse.mp hc)
  · unfold trimEnd
    rw [← List.reverse_append, List.takeWhile_append_dropWhile, List.reverse_reverse]

/-- Only blanks are taken off. -/
theorem trim_split (cs : List Char) : ∃ a b, (∀ c ∈ a, isBlank c = true) ∧
    (∀ c ∈ b, isBlank c = true) ∧ cs = a ++ trim cs ++ b := by
  obtain ⟨b, hb, hsplit⟩ := trimEnd_split (cs.dropWhile isBlank)
  refine ⟨cs.takeWhile isBlank, b, fun c hc => List.mem_takeWhile_imp hc, hb, ?_⟩
  unfold trim
  rw [List.append_assoc, ← hsplit, List.takeWhile_append_dropWhile]

theorem dropWhile_of_head (h : ∀ c ∈ cs.head?, isBlank c = false) : cs.dropWhile isBlank = cs := by
  cases cs with
  | nil => rfl
  | cons c cs => rw [List.dropWhile_cons_of_neg (by simp [h c rfl])]

theorem head_dropWhile (cs : List Char) : ∀ c ∈ (cs.dropWhile isBlank).head?, isBlank c = false := by
  intro c hc
  have hnot := List.head?_dropWhile_not isBlank cs
  rw [Option.mem_def.mp hc] at hnot
  exact hnot

theorem head_trim (cs : List Char) : ∀ c ∈ (trim cs).head?, isBlank c = false := by
  intro c hc
  obtain ⟨b, -, hsplit⟩ := trimEnd_split (cs.dropWhile isBlank)
  have hfirst : (trimEnd (cs.dropWhile isBlank)).head? = some c := hc
  refine head_dropWhile cs c ?_
  rw [hsplit, List.head?_append, hfirst]
  rfl

theorem last_trim (cs : List Char) : ∀ c ∈ (trim cs).getLast?, isBlank c = false := by
  intro c hc
  unfold trim trimEnd at hc
  rw [List.getLast?_reverse] at hc
  exact head_dropWhile _ c hc

theorem trim_of_ends (first : ∀ c ∈ cs.head?, isBlank c = false)
    (last : ∀ c ∈ cs.getLast?, isBlank c = false) : trim cs = cs := by
  unfold trim trimEnd
  rw [dropWhile_of_head first, dropWhile_of_head, List.reverse_reverse]
  rwa [List.head?_reverse]

theorem trim_trim (cs : List Char) : trim (trim cs) = trim cs :=
  trim_of_ends (head_trim cs) (last_trim cs)

theorem trim_eq_nil : trim cs = [] ↔ ∀ c ∈ cs, isBlank c = true := by
  constructor
  · intro hnil
    obtain ⟨a, b, ha, hb, hsplit⟩ := trim_split cs
    rw [hnil, List.append_nil] at hsplit
    rw [hsplit]
    intro c hc
    exact (List.mem_append.mp hc).elim (ha c) (hb c)
  · intro hblank
    have hpadded : trim (cs ++ [] ++ []) = trim [] :=
      trim_padded hblank fun c hc => absurd hc List.not_mem_nil
    rwa [List.append_nil, List.append_nil] at hpadded

end Trim

/-- The part without blank ends that stands between blanks is the trimmed text. -/
theorem trim_of_split {a t b : String} (ha : AllBlank a) (hb : AllBlank b) (ht : NoBlankEnds t) :
    trim (a ++ t ++ b).toList = t.toList := by
  rw [String.toList_append, String.toList_append, trim_padded ha hb]
  exact trim_of_ends ht.first ht.last

end UnitLedger.Text

/-! ## Names -/

namespace UnitLedger.Name

open Text

variable {s t : String}

theorem normalize?_eq_ite (s : String) :
    normalize? s = if trim s.toList = [] ∨ maxLength < (trim s.toList).length then none
      else some (String.ofList (trim s.toList)) := by
  unfold normalize?
  simp [List.isEmpty_iff]

theorem normalize?_eq_some : normalize? s = some t ↔
    t.toList = trim s.toList ∧ 1 ≤ t.length ∧ t.length ≤ maxLength := by
  rw [normalize?_eq_ite, ← String.length_toList]
  constructor
  · intro h
    split at h
    · cases h
    · rename_i hallowed
      cases h
      rw [not_or] at hallowed
      rw [String.toList_ofList]
      exact ⟨rfl, List.length_pos_iff.mpr hallowed.1, Nat.not_lt.mp hallowed.2⟩
  · rintro ⟨htrim, hpos, hmax⟩
    rw [← htrim, if_neg, String.ofList_toList]
    rw [not_or]
    exact ⟨List.length_pos_iff.mp hpos, Nat.not_lt.mpr hmax⟩

/-- Blanks around a text do not change its stored form. -/
theorem normalize?_padded {a b : String} (ha : AllBlank a) (hb : AllBlank b) :
    normalize? (a ++ s ++ b) = normalize? s := by
  unfold normalize?
  rw [String.toList_append, String.toList_append, trim_padded ha hb]

/-- A stored form is its own stored form. -/
theorem normalize?_stored (h : normalize? s = some t) : normalize? t = some t := by
  obtain ⟨htrim, hlength⟩ := normalize?_eq_some.mp h
  refine normalize?_eq_some.mpr ⟨?_, hlength⟩
  rw [htrim, trim_trim]

theorem isStored_iff : IsStored t ↔ normalize? t = some t := by
  rw [normalize?_eq_some]
  unfold IsStored
  rw [eq_comm]

/-- The stored form is a part of the text, and the rest of the text is blank. -/
theorem normalize?_split (h : normalize? s = some t) :
    NoBlankEnds t ∧ ∃ a b, AllBlank a ∧ AllBlank b ∧ s = a ++ t ++ b := by
  obtain ⟨htrim, -⟩ := normalize?_eq_some.mp h
  refine ⟨⟨?_, ?_⟩, ?_⟩
  · rw [htrim]
    exact head_trim _
  · rw [htrim]
    exact last_trim _
  · obtain ⟨a, b, ha, hb, hsplit⟩ := trim_split s.toList
    refine ⟨String.ofList a, String.ofList b, ?_, ?_, ?_⟩
    · unfold AllBlank
      rwa [String.toList_ofList]
    · unfold AllBlank
      rwa [String.toList_ofList]
    · rw [← String.toList_inj, String.toList_append, String.toList_append, String.toList_ofList,
        String.toList_ofList, htrim]
      exact hsplit

theorem normalize?_eq_none : normalize? s = none ↔
    AllBlank s ∨ maxLength < (trim s.toList).length := by
  unfold AllBlank
  rw [normalize?_eq_ite, ← trim_eq_nil]
  split
  · rename_i h
    exact iff_of_true rfl h
  · rename_i h
    exact iff_of_false nofun h

/-- There is no stored form exactly if the text is blank, or what is left of it between its blank ends
is too long. -/
theorem normalize?_refuses : normalize? s = none ↔ AllBlank s ∨ ∃ a t b, AllBlank a ∧ AllBlank b ∧
    s = a ++ t ++ b ∧ NoBlankEnds t ∧ maxLength < t.length := by
  rw [normalize?_eq_none]
  refine or_congr_right ⟨fun hlong => ?_, ?_⟩
  · obtain ⟨a, b, ha, hb, hsplit⟩ := trim_split s.toList
    refine ⟨String.ofList a, String.ofList (trim s.toList), String.ofList b, ?_, ?_, ?_, ⟨?_, ?_⟩, ?_⟩
    · unfold AllBlank
      rwa [String.toList_ofList]
    · unfold AllBlank
      rwa [String.toList_ofList]
    · rw [← String.toList_inj]
      simpa only [String.toList_append, String.toList_ofList] using hsplit
    · rw [String.toList_ofList]
      exact head_trim _
    · rw [String.toList_ofList]
      exact last_trim _
    · rwa [← String.length_toList, String.toList_ofList]
  · rintro ⟨a, t, b, ha, hb, rfl, hends, hlong⟩
    rwa [trim_of_split ha hb hends, String.length_toList]

end UnitLedger.Name

/-! ## Requests -/

namespace UnitLedger

open Text

def TransferRequest.padded (r : TransferRequest) (a b c d : String) : TransferRequest :=
  { r with source := a ++ r.source ++ b, target := c ++ r.target ++ d }

def TransferOrder.request (o : TransferOrder) : TransferRequest :=
  ⟨o.fund, o.source, o.target, o.units, o.key⟩

theorem TransferRequest.validate_padded (r : TransferRequest) {a b c d : String} (ha : AllBlank a)
    (hb : AllBlank b) (hc : AllBlank c) (hd : AllBlank d) :
    (r.padded a b c d).validate = r.validate := by
  unfold validate padded
  dsimp only
  rw [Name.normalize?_padded ha hb, Name.normalize?_padded hc hd]

theorem TransferOrder.validate_request {r : TransferRequest} {o : TransferOrder}
    (h : r.validate = .ok o) : o.request.validate = .ok o := by
  have accepted := TransferOrder.accepted h
  have hunits : Units.checked? o.units 1 = some o.units := by
    have hmin := accepted.positive
    have hmax := accepted.bounded
    unfold Units.checked?
    rw [if_neg]
    unfold Units.least
    omega
  unfold TransferRequest.validate request
  dsimp only
  rw [Name.normalize?_stored accepted.source, Name.normalize?_stored accepted.target, hunits]
  exact if_neg accepted.differ

/-- Blanks around a text do not change the stored form. The stored form is a part of the text, without
blank ends, with 1 to 255 code points, around which the text is blank; it is its own stored form. There
is none exactly if the text is blank or the part between its blank ends has more than 255 code points.
So blanks around the owners' names of a request do not change the order, and the request for just an
accepted order is accepted as that order. -/
theorem normalization_canonical :
    (∀ s a b, AllBlank a → AllBlank b → Name.normalize? (a ++ s ++ b) = Name.normalize? s) ∧
      (∀ s t, Name.normalize? s = some t →
        (∃ a b, AllBlank a ∧ AllBlank b ∧ s = a ++ t ++ b) ∧ 1 ≤ t.length ∧ t.length ≤ 255 ∧
          NoBlankEnds t ∧ Name.normalize? t = some t) ∧
      (∀ s, Name.normalize? s = none ↔ AllBlank s ∨ ∃ a t b, AllBlank a ∧ AllBlank b ∧
        s = a ++ t ++ b ∧ NoBlankEnds t ∧ 255 < t.length) ∧
      ∀ (r : TransferRequest) (o : TransferOrder), r.validate = .ok o →
        (∀ a b c d, AllBlank a → AllBlank b → AllBlank c → AllBlank d →
          (r.padded a b c d).validate = .ok o) ∧ o.request.validate = .ok o := by
  refine ⟨fun s a b ha hb => Name.normalize?_padded ha hb, fun s t h => ?_,
    fun s => Name.normalize?_refuses, fun r o h => ⟨fun a b c d ha hb hc hd => ?_, ?_⟩⟩
  · obtain ⟨-, hmin, hmax⟩ := Name.normalize?_eq_some.mp h
    obtain ⟨hends, hsplit⟩ := Name.normalize?_split h
    exact ⟨hsplit, hmin, hmax, hends, Name.normalize?_stored h⟩
  · rw [r.validate_padded ha hb hc hd]
    exact h
  · exact TransferOrder.validate_request h

/-- Ada's request for four units, with blanks of several kinds around the names. -/
theorem adas_request_canonical :
    let request : TransferRequest := ⟨Uuid.ofNat 1, "\t Ada\u00a0L. ", "Ben", 4, none⟩
    let order : TransferOrder := ⟨Uuid.ofNat 1, "Ada\u00a0L.", "Ben", 4, none⟩
    AllBlank "\u3000" ∧ AllBlank " \u0085" ∧
      Name.normalize? ("\u3000" ++ request.source ++ " \u0085") = some order.source ∧
      request.validate = .ok order ∧
      (request.padded "\u3000" "" "" " \u0085").validate = .ok order ∧
      order.request.validate = .ok order := by
  intro request order
  have hwide : AllBlank "\u3000" := by decide +kernel
  have hnext : AllBlank " \u0085" := by decide +kernel
  have hnone : AllBlank "" := by decide +kernel
  have hname : Name.normalize? request.source = some order.source := by decide +kernel
  have hvalid : request.validate = .ok order := by decide +kernel
  obtain ⟨hpadded, -, -, horder⟩ := normalization_canonical
  refine ⟨hwide, hnext, ?_, hvalid, (horder _ _ hvalid).1 _ _ _ _ hwide hnone hnone hnext,
    (horder _ _ hvalid).2⟩
  rw [hpadded _ _ _ hwide hnext]
  exact hname

end UnitLedger
