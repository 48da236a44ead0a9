import Mathlib.Data.List.Nodup
import UnitLedger.Memory.Write

/-!
  UnitLedger.Proofs.Memory.Rows — looking rows up and changing them.

  In well-formed tables every entry is active, has an id of its own, and is the only one of its owner
  in its fund. Then looking an entry up is membership, and what a change does to a look-up can be read
  off the rows.
-/

namespace UnitLedger.Memory.Tables

variable {t : Tables}

structure WellFormed (t : Tables) : Prop where
  ids : (t.entries.map (·.id)).Nodup
  holders : (t.entries.map fun e => (e.fund, e.owner)).Nodup
  active : ∀ e ∈ t.entries, e.isActive = true
  funds : ∀ e ∈ t.entries, t.hasFund e.fund = true
  units : ∀ e ∈ t.entries, 0 ≤ e.units

theorem wellFormed_empty : WellFormed {} := by
  refine ⟨by simp, by simp, ?_, ?_, ?_⟩ <;> intro e he <;> cases he

/-! ## Keyed lists -/

/-- What no element of a list has, can be added to it. -/
theorem nodup_map_concat {α β : Type} {f : α → β} {l : List α} {a : α} (h : (l.map f).Nodup)
    (hnew : ∀ b ∈ l, f b ≠ f a) : ((l ++ [a]).map f).Nodup := by
  rw [List.map_append, List.map_singleton, ← List.concat_eq_append]
  refine h.concat fun hmem => ?_
  obtain ⟨b, hb, hba⟩ := List.mem_map.mp hmem
  exact hnew b hb hba

/-- Where keys are distinct, looking up is membership. -/
theorem find?_eq_some_of_nodup {α : Type} {key : α → Uuid} {l : List α} (h : (l.map key).Nodup)
    {id : Uuid} {a : α} : (l.find? fun x => key x == id) = some a ↔ a ∈ l ∧ key a = id := by
  constructor
  · intro hfound
    have hid := List.find?_some hfound
    exact ⟨List.mem_of_find?_eq_some hfound, by simpa using hid⟩
  · rintro ⟨ha, rfl⟩
    cases hfound : l.find? fun x => key x == key a with
    | none => exact absurd (beq_self_eq_true (key a)) (List.find?_eq_none.mp hfound a ha)
    | some b =>
      have hid := List.find?_some hfound
      rw [List.inj_on_of_nodup_map h (List.mem_of_find?_eq_some hfound) ha (by simpa using hid)]

/-! ## Looking up -/

theorem isActiveOf_iff {e : Entry} {fund : Uuid} {owner : String} :
    e.isActiveOf fund owner = true ↔ e.fund = fund ∧ e.owner = owner ∧ e.isActive = true := by
  simp [Entry.isActiveOf, and_assoc]

theorem hasFund_iff {id : Uuid} : t.hasFund id = true ↔ ∃ f ∈ t.funds, f.id = id := by
  simp [hasFund]

theorem findByKey_isSome_iff {key : Uuid} :
    (t.findByKey key).isSome = true ↔ ∃ r ∈ t.transfers, r.key = some key := by
  simp [findByKey]

theorem mem_of_findByKey {key : Uuid} {r : Transfer} (h : t.findByKey key = some r) :
    r ∈ t.transfers ∧ r.key = some key := by
  refine ⟨List.mem_of_find?_eq_some h, ?_⟩
  have := List.find?_some h
  simpa using this

theorem mem_of_entryById {id : Uuid} {e : Entry} (h : t.entryById id = some e) :
    e ∈ t.entries ∧ e.id = id := by
  have hid := List.find?_some (p := fun e : Entry => e.id == id) h
  exact ⟨List.mem_of_find?_eq_some h, by simpa using hid⟩

theorem entryById_eq_some_of_nodup (hids : (t.entries.map (·.id)).Nodup) {id : Uuid} {e : Entry} :
    t.entryById id = some e ↔ e ∈ t.entries ∧ e.id = id :=
  find?_eq_some_of_nodup hids

theorem mem_of_activeOf {fund : Uuid} {owner : String} {e : Entry}
    (h : t.activeOf fund owner = some e) :
    e ∈ t.entries ∧ e.fund = fund ∧ e.owner = owner ∧ e.isActive = true :=
  ⟨List.mem_of_find?_eq_some h,
    isActiveOf_iff.mp (List.find?_some (p := fun e : Entry => e.isActiveOf fund owner) h)⟩

namespace WellFormed

variable (wf : t.WellFormed)

include wf

theorem eq_of_id {a b : Entry} (ha : a ∈ t.entries) (hb : b ∈ t.entries) (h : a.id = b.id) :
    a = b :=
  List.inj_on_of_nodup_map wf.ids ha hb h

theorem eq_of_holder {a b : Entry} (ha : a ∈ t.entries) (hb : b ∈ t.entries)
    (hf : a.fund = b.fund) (ho : a.owner = b.owner) : a = b :=
  List.inj_on_of_nodup_map wf.holders ha hb (by rw [hf, ho])

theorem entryById_eq_some {id : Uuid} {e : Entry} :
    t.entryById id = some e ↔ e ∈ t.entries ∧ e.id = id :=
  entryById_eq_some_of_nodup wf.ids

theorem activeOf_eq_some {fund : Uuid} {owner : String} {e : Entry} :
    t.activeOf fund owner = some e ↔ e ∈ t.entries ∧ e.fund = fund ∧ e.owner = owner := by
  constructor
  · intro h
    obtain ⟨he, hf, ho, -⟩ := mem_of_activeOf h
    exact ⟨he, hf, ho⟩
  · rintro ⟨he, rfl, rfl⟩
    cases h : t.activeOf e.fund e.owner with
    | none =>
      have := List.find?_eq_none.mp h e he
      simp [isActiveOf_iff, wf.active e he] at this
    | some e' =>
      obtain ⟨he', hf, ho, -⟩ := mem_of_activeOf h
      rw [wf.eq_of_holder he' he hf ho]

theorem activeOf_eq_none {fund : Uuid} {owner : String} :
    t.activeOf fund owner = none ↔ ∀ e ∈ t.entries, ¬ (e.fund = fund ∧ e.owner = owner) := by
  simp only [activeOf, List.find?_eq_none]
  constructor
  · intro h e he hfo
    exact h e he (isActiveOf_iff.mpr ⟨hfo.1, hfo.2, wf.active e he⟩)
  · intro h e he ha
    have := isActiveOf_iff.mp ha
    exact h e he ⟨this.1, this.2.1⟩

theorem hasActive_iff {fund : Uuid} {owner : String} :
    t.hasActive fund owner = true ↔ ∃ e ∈ t.entries, e.fund = fund ∧ e.owner = owner := by
  rw [hasActive, Option.isSome_iff_exists]
  constructor
  · rintro ⟨e, h⟩
    exact ⟨e, wf.activeOf_eq_some.mp h⟩
  · rintro ⟨e, h⟩
    exact ⟨e, wf.activeOf_eq_some.mpr h⟩

/-- An entry that is looked up by its id is found although only active ones count. -/
theorem entryById_filter {id : Uuid} :
    (t.entryById id).filter (·.isActive) = t.entryById id := by
  cases h : t.entryById id with
  | none => rfl
  | some e =>
    have := wf.active e (wf.entryById_eq_some.mp h).1
    simp [this]

end WellFormed

/-! ## A new balance -/

def repriced (units : Int) (now : Instant) (e : Entry) : Entry := { e with units, updatedAt := now }

section SetUnits

variable {id : Uuid} {units : Int} {now : Instant}

theorem mem_setUnits {e : Entry} :
    e ∈ (t.setUnits id units now).entries ↔
      ∃ d ∈ t.entries, e = if d.id = id then repriced units now d else d := by
  simp only [setUnits, List.mem_map, beq_iff_eq, repriced]
  exact exists_congr fun d => and_congr_right fun _ => eq_comm

theorem setUnits_keeps {α : Type} (f : Entry → α) (hf : ∀ e, f (repriced units now e) = f e) :
    (t.setUnits id units now).entries.map f = t.entries.map f := by
  simp only [setUnits, List.map_map]
  refine List.map_congr_left fun e _ => ?_
  simp only [Function.comp_apply]
  split
  · exact hf e
  · rfl

theorem hasFund_setUnits (fund : Uuid) : (t.setUnits id units now).hasFund fund = t.hasFund fund :=
  rfl

theorem WellFormed.setUnits (wf : t.WellFormed) (h : 0 ≤ units) :
    (t.setUnits id units now).WellFormed := by
  refine ⟨?_, ?_, ?_, ?_, ?_⟩
  · rw [setUnits_keeps (·.id) fun _ => rfl]
    exact wf.ids
  · rw [setUnits_keeps (fun e => (e.fund, e.owner)) fun _ => rfl]
    exact wf.holders
  all_goals
    intro e he
    obtain ⟨d, hd, rfl⟩ := mem_setUnits.mp he
  · split <;> exact wf.active d hd
  · split <;> exact wf.funds d hd
  · split
    · exact h
    · exact wf.units d hd

/-- A look-up that does not ask for balances finds the same entry after a change of balance. -/
theorem find?_setUnits {p : Entry → Bool} (hp : ∀ e, p (repriced units now e) = p e) :
    (t.setUnits id units now).entries.find? p =
      (t.entries.find? p).map fun e => if e.id = id then repriced units now e else e := by
  simp only [Tables.setUnits, List.find?_map]
  congr 1
  · funext e
    simp only [beq_iff_eq, repriced]
  · congr 1
    funext e
    simp only [Function.comp_apply]
    split
    · exact hp e
    · rfl

theorem activeOf_setUnits (id : Uuid) (units : Int) (now : Instant) (fund : Uuid) (owner : String) :
    (t.setUnits id units now).activeOf fund owner =
      (t.activeOf fund owner).map fun e => if e.id = id then repriced units now e else e :=
  find?_setUnits fun _ => rfl

theorem entryById_setUnits (id : Uuid) (units : Int) (now : Instant) (id' : Uuid) :
    (t.setUnits id units now).entryById id' =
      (t.entryById id').map fun e => if e.id = id then repriced units now e else e :=
  find?_setUnits fun _ => rfl

end SetUnits

/-! ## A new entry -/

section PutEntry

variable {e : Entry}

theorem putEntry_entries (h : ∀ d ∈ t.entries, d.id ≠ e.id) :
    (t.putEntry e).entries = t.entries ++ [e] := by
  have : t.entries.filter (fun old => old.id != e.id) = t.entries :=
    List.filter_eq_self.mpr fun d hd => by simpa using h d hd
  simp [putEntry, this]

theorem WellFormed.putEntry (wf : t.WellFormed) (hid : ∀ d ∈ t.entries, d.id ≠ e.id)
    (hnew : t.hasActive e.fund e.owner = false) (hactive : e.isActive = true)
    (hfund : t.hasFund e.fund = true) (hunits : 0 ≤ e.units) : (t.putEntry e).WellFormed := by
  have hentries := putEntry_entries hid
  have hholder : ∀ d ∈ t.entries, ¬ (d.fund = e.fund ∧ d.owner = e.owner) := by
    intro d hd hfo
    rw [← Bool.not_eq_true, wf.hasActive_iff] at hnew
    exact hnew ⟨d, hd, hfo⟩
  refine ⟨?_, ?_, ?_, ?_, ?_⟩ <;> rw [hentries]
  · exact nodup_map_concat wf.ids hid
  · refine nodup_map_concat wf.holders fun d hd hsame => ?_
    exact hholder d hd (Prod.mk.inj hsame)
  all_goals
    intro d hd
    rcases List.mem_append.mp hd with hd | hd
  · exact wf.active d hd
  · exact List.mem_singleton.mp hd ▸ hactive
  · exact wf.funds d hd
  · exact List.mem_singleton.mp hd ▸ hfund
  · exact wf.units d hd
  · exact List.mem_singleton.mp hd ▸ hunits

end PutEntry

end UnitLedger.Memory.Tables
