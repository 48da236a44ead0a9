import UnitLedger.Proofs.Memory.Constraints

/-!
  UnitLedger.Proofs.Memory.Turnover — what a commit makes of an owner's entry.

  An owner of a fund has an active entry before a commit or has none, and likewise after it. `Turnover`
  lists how the two go together when the commit goes through and creates entries under new ids only. It
  starts from the owner's committed entry, from the entry that the journal creates, or, when only
  credits name the owner, from an entry without units under an id of the supply; and it moves the units
  of all debits of this entry and all credits of this owner, wherever they stand in the journal.

  A transaction that looks at such an entry before its commit sees the units that it will have after it
  (`Turnover.keeps`, `Turnover.enters`): no clamping takes place where the commit's checks pass.
-/

namespace UnitLedger

theorem Units.clamp_eq_self {units : Int} (h : Units.Fits units) : Units.clamp units = units := by
  obtain ⟨hleast, hgreatest⟩ := h
  unfold Units.clamp
  omega

end UnitLedger

namespace UnitLedger.Memory

open Tables (repriced)

/-! ## New ids -/

/-- The entries that the journal may create have ids of their own, which no committed entry has. -/
structure Journal.NewIds (fresh : Nat → Uuid) (j : Journal) (t : Tables) : Prop where
  distinct : (Journal.created fresh j).Nodup
  unused : ∀ id ∈ Journal.created fresh j, id ∉ t.entryIds

namespace Journal.NewIds

variable {fresh : Nat → Uuid} {t t' : Tables} {w : Write} {rest : Journal} {now : Instant}
  {undo : Undo}

theorem head (h : NewIds fresh (w :: rest) t) : ∀ id ∈ w.created (fresh 0), id ∉ t.entryIds :=
  fun id hid => h.unused id (List.mem_append_left _ hid)

/-- What a write creates, the rest of the journal does not create again. -/
theorem apart (h : NewIds fresh (w :: rest) t) {id : Uuid} (hid : id ∈ w.created (fresh 0)) :
    id ∉ Journal.created (fun n => fresh (n + 1)) rest :=
  fun hrest => (List.nodup_append.mp h.distinct).2.2 id hid id hrest rfl

/-- The ids of the rest are still new after the first write. -/
theorem tail (h : NewIds fresh (w :: rest) t) (happly : t.apply (fresh 0) now w = .ok (t', undo)) :
    NewIds (fun n => fresh (n + 1)) rest t' := by
  refine ⟨(List.nodup_append.mp h.distinct).2.1, fun id hid hold => ?_⟩
  rcases List.mem_append.mp (Tables.entryIds_apply_subset happly hold) with hold | hcreated
  · exact h.unused id (List.mem_append_right _ hid) hold
  · exact h.apart hcreated hid

end Journal.NewIds

/-! ## Pending writes laid over an entry -/

namespace Journal

def moved (j : Journal) (at_ : Instant) (e : Entry) : Entry :=
  repriced (e.units - j.outgoing e.id + j.incoming e.fund e.owner) at_ e

theorem moved_cons (w : Write) (rest : Journal) (at_ at' : Instant) (e : Entry) :
    moved (w :: rest) at_ e =
      rest.moved at_ (repriced (e.units - w.outgoing e.id + w.incoming e.fund e.owner) at' e) := by
  have hunits : e.units - outgoing e.id (w :: rest) + incoming e.fund e.owner (w :: rest) =
      e.units - w.outgoing e.id + w.incoming e.fund e.owner - outgoing e.id rest +
        incoming e.fund e.owner rest := by
    simp only [outgoing, incoming, List.map_cons, List.sum_cons]
    omega
  rw [moved, hunits]
  rfl

theorem moved_cons_still {w : Write} {e : Entry} (hout : w.outgoing e.id = 0)
    (hin : w.incoming e.fund e.owner = 0) (rest : Journal) (at_ : Instant) :
    moved (w :: rest) at_ e = rest.moved at_ e := by
  rw [moved_cons w rest at_ e.updatedAt, hout, hin, Int.sub_zero, Int.add_zero, Tables.repriced_self]

/-! ## Entries that a journal creates -/

theorem createdEntry_entry (d : Entry) (rest : Journal) (fund : Uuid) (owner : String) :
    createdEntry (.entry d :: rest) fund owner =
      if d.isActiveOf fund owner then some d else rest.createdEntry fund owner := by
  by_cases h : d.isActiveOf fund owner = true <;> simp [createdEntry, h]

theorem mem_of_createdEntry {j : Journal} {fund : Uuid} {owner : String} {e : Entry}
    (h : j.createdEntry fund owner = some e) :
    Write.entry e ∈ j ∧ e.isActiveOf fund owner = true := by
  obtain ⟨w, hw, hfound⟩ := List.exists_of_findSome?_eq_some h
  cases w with
  | entry d =>
    dsimp only at hfound
    split at hfound
    · rename_i hactive
      cases hfound
      exact ⟨hw, hactive⟩
    · cases hfound
  | _ => cases hfound

/-- The id of an entry that the journal creates is among those that it may create. -/
theorem mem_created_of_entry {fresh : Nat → Uuid} {j : Journal} {e : Entry} (h : Write.entry e ∈ j) :
    e.id ∈ created fresh j := by
  obtain ⟨n, hn⟩ := List.mem_iff_getElem?.mp h
  exact created_subset hn (List.mem_singleton_self _)

end Journal

namespace Tables

variable {t t' : Tables} {fresh : Nat → Uuid} {freshId : Uuid} {now : Instant} {w : Write}
  {undo : Undo} {journal : Journal} {fund : Uuid} {owner : String}

/-- Where the checks of a write pass, the write is laid over an entry without clamping. -/
theorem overlayWrite_apply (keyed : t.Keyed) {e : Entry} (he : e ∈ t.entries)
    (hactive : e.isActive = true) (h : t.apply freshId now w = .ok (t', undo)) (at_ : Instant) :
    Journal.overlayWrite (repriced e.units at_ e) w =
      repriced (e.units - w.outgoing e.id + w.incoming e.fund e.owner) at_ e := by
  cases applied h with
  | @debit d units hd hdactive covered fits =>
    by_cases hde : d.id = e.id
    · obtain rfl := keyed.eq_of_id hd he hde
      simp [Journal.overlayWrite, Write.outgoing, Write.incoming, repriced, Units.subClamped,
        Units.clamp_eq_self fits]
    · simp [Journal.overlayWrite, Write.outgoing, Write.incoming, repriced, hde]
  | @credit d fund owner units found fits =>
    obtain ⟨hd, rfl, rfl, hdactive⟩ := mem_of_activeOf found
    by_cases hsame : d.fund = e.fund ∧ d.owner = e.owner
    · obtain rfl := keyed.holders d hd e he hdactive hactive hsame.1 hsame.2
      simp [Journal.overlayWrite, Write.outgoing, Write.incoming, repriced, Units.addClamped,
        Units.clamp_eq_self fits]
    · simp [Journal.overlayWrite, Write.outgoing, Write.incoming, repriced, hsame]
  | @creates fund owner units free =>
    have hother : ¬ (fund = e.fund ∧ owner = e.owner) := by
      rintro ⟨rfl, rfl⟩
      rw [keyed.activeOf_eq_some.mpr ⟨he, rfl, rfl, hactive⟩] at free
      cases free
    simp [Journal.overlayWrite, Write.outgoing, Write.incoming, repriced, hother]
  | _ => simp [Journal.overlayWrite, Write.outgoing, Write.incoming, repriced]

/-! ## An owner who has an entry -/

/-- By induction on the writes: each is laid over what the writes before it have left of the entry,
and none creates another entry of the owner. -/
theorem applyAll_held {undos : List Undo} (keyed : t.Keyed) {e : Entry} (he : e ∈ t.entries)
    (hactive : e.isActive = true) (hnew : e.id ∉ Journal.created fresh journal)
    (h : t.applyAll fresh now undos journal = (t', .ok ())) :
    journal.createdEntry e.fund e.owner = none ∧
      ∀ at_, journal.overlay (repriced e.units at_ e) = journal.moved at_ e := by
  induction journal generalizing fresh t e undos with
  | nil => exact ⟨rfl, fun at_ => by simp [Journal.overlay, Journal.moved, Journal.outgoing,
      Journal.incoming]⟩
  | cons w rest ih =>
    simp only [applyAll] at h
    split at h
    · rename_i next undo happly
      obtain ⟨hw, hrest⟩ : e.id ∉ w.created (fresh 0) ∧
          e.id ∉ Journal.created (fun n => fresh (n + 1)) rest := by
        simpa [Journal.created] using hnew
      obtain ⟨at', hnext⟩ := apply_balance keyed he hactive hw happly
      obtain ⟨hplain, hseen⟩ := ih (keyed.apply happly) hnext hactive hrest h
      refine ⟨?_, fun at_ => ?_⟩
      · cases applied happly with
        | @entry d fund units free =>
          have hother : ¬ d.isActiveOf e.fund e.owner = true := by
            intro hd
            obtain ⟨hf, ho, hdactive⟩ := isActiveOf_iff.mp hd
            have hnone := free hdactive
            rw [hf, ho, keyed.activeOf_eq_some.mpr ⟨he, rfl, rfl, hactive⟩] at hnone
            cases hnone
          rw [Journal.createdEntry_entry, if_neg hother]
          exact hplain
        | _ => exact hplain
      · have hfirst := overlayWrite_apply keyed he hactive happly at_
        rw [Journal.moved_cons w rest at_ at', ← hseen at_, Journal.overlay, List.foldl_cons, hfirst]
        rfl
    · cases h

/-- Afterwards the entry has the units that the journal moves. -/
theorem applyAll_activeOf {undos : List Undo} (keyed : t.Keyed) {e : Entry}
    (he : t.activeOf fund owner = some e) (hnew : e.id ∉ Journal.created fresh journal)
    (h : t.applyAll fresh now undos journal = (t', .ok ())) :
    ∃ at_, t'.activeOf fund owner = some (journal.moved at_ e) := by
  obtain ⟨hmem, rfl, rfl, hactive⟩ := mem_of_activeOf he
  obtain ⟨at_, hlast⟩ := applyAll_balance keyed hmem hactive hnew h
  have keyed' : t'.Keyed :=
    applyAll_keeps keyed (fun _ _ _ _ _ _ keyed happly => keyed.apply happly) h
  exact ⟨at_, keyed'.activeOf_eq_some.mpr ⟨hlast, rfl, rfl, hactive⟩⟩

end Tables

/-! ## Writes that pass an owner by -/

structure Write.Passes (w : Write) (fund : Uuid) (owner : String) (ids : List Uuid) : Prop where
  plain : ∀ d, w = .entry d → ¬ d.isActiveOf fund owner = true
  uncredited : ∀ f o units, w = .credit f o units → ¬ (f = fund ∧ o = owner)
  undebited : ∀ id units, w = .debit id units → id ∉ ids

namespace Write.Passes

variable {w : Write} {fund : Uuid} {owner : String} {ids : List Uuid} {e : Entry}

theorem createdEntry (h : w.Passes fund owner ids) (rest : Journal) :
    Journal.createdEntry (w :: rest) fund owner = rest.createdEntry fund owner := by
  cases w with
  | entry d => rw [Journal.createdEntry_entry, if_neg (h.plain d rfl)]
  | _ => rfl

theorem credits (h : w.Passes fund owner ids) (rest : Journal) :
    Journal.credits (w :: rest) fund owner = rest.credits fund owner := by
  cases w with
  | credit f o units =>
    simpa [Journal.credits] using fun hf ho => absurd ⟨hf, ho⟩ (h.uncredited f o units rfl)
  | _ => rfl

theorem incoming (h : w.Passes fund owner ids) : w.incoming fund owner = 0 := by
  cases w with
  | credit f o units => exact if_neg (h.uncredited f o units rfl)
  | _ => rfl

theorem outgoing (h : w.Passes fund owner ids) {id : Uuid} (hid : id ∈ ids) : w.outgoing id = 0 := by
  cases w with
  | debit id' units =>
    refine if_neg ?_
    rintro rfl
    exact h.undebited id' units rfl hid
  | _ => rfl

theorem overlayWrite (h : w.Passes fund owner ids) (hid : e.id ∈ ids)
    (hown : e.isActiveOf fund owner = true) : Journal.overlayWrite e w = e := by
  obtain ⟨rfl, rfl, -⟩ := Tables.isActiveOf_iff.mp hown
  cases w with
  | debit id units =>
    have hne : id ≠ e.id := by
      rintro rfl
      exact h.undebited e.id units rfl hid
    simp [Journal.overlayWrite, hne]
  | credit f o units =>
    simpa [Journal.overlayWrite] using fun hf ho => absurd ⟨hf, ho⟩ (h.uncredited f o units rfl)
  | _ => rfl

end Write.Passes

/-! ## What becomes of an owner's entry -/

def unitsOf (e : Option Entry) : Int := e.elim 0 (·.units)

inductive Turnover (fresh : Nat → Uuid) (j : Journal) (fund : Uuid) (owner : String) :
    Option Entry → Option Entry → Prop where
  | keeps {e at_} (own : e.isActiveOf fund owner = true) (plain : j.createdEntry fund owner = none)
      (seen : j.overlay e = j.moved e.updatedAt e) :
      Turnover fresh j fund owner (some e) (some (j.moved at_ e))
  | lacks (plain : j.createdEntry fund owner = none) (uncredited : j.credits fund owner = false) :
      Turnover fresh j fund owner none none
  | enters {e at_} (created : j.createdEntry fund owner = some e)
      (seen : j.overlay e = j.moved e.updatedAt e) :
      Turnover fresh j fund owner none (some (j.moved at_ e))
  | earns {id now at_} (plain : j.createdEntry fund owner = none)
      (credited : j.credits fund owner = true) (new : id ∈ Journal.created fresh j) :
      Turnover fresh j fund owner none (some (j.moved at_ (firstCredit id now fund owner 0)))

namespace Turnover

variable {fresh : Nat → Uuid} {rest : Journal} {fund : Uuid} {owner : String} {w : Write}
  {after : Option Entry}

/-- A write that passes by an owner who has no entry makes no difference to the owner. -/
theorem cons (h : Turnover (fun n => fresh (n + 1)) rest fund owner none after)
    (passes : w.Passes fund owner (Journal.created (fun n => fresh (n + 1)) rest)) :
    Turnover fresh (w :: rest) fund owner none after := by
  have hplain := passes.createdEntry rest
  have hcredits := passes.credits rest
  cases h with
  | lacks plain uncredited => exact .lacks (hplain.trans plain) (hcredits.trans uncredited)
  | @enters e at_ created seen =>
    obtain ⟨hmem, hactive⟩ := Journal.mem_of_createdEntry created
    have hid : e.id ∈ Journal.created (fun n => fresh (n + 1)) rest :=
      Journal.mem_created_of_entry hmem
    obtain ⟨rfl, rfl, -⟩ := Tables.isActiveOf_iff.mp hactive
    have hstill := Journal.moved_cons_still (passes.outgoing hid) passes.incoming rest
    rw [← hstill at_]
    refine .enters (hplain.trans created) ?_
    rw [hstill, Journal.overlay, List.foldl_cons, passes.overlayWrite hid hactive]
    exact seen
  | @earns id now at_ plain credited new =>
    have hstill := Journal.moved_cons_still (e := firstCredit id now fund owner 0)
      (passes.outgoing new) passes.incoming rest
    rw [← hstill at_]
    exact .earns (hplain.trans plain) (hcredits.trans credited) (List.mem_append_right _ new)

end Turnover

namespace Tables

variable {t t' : Tables} {fresh : Nat → Uuid} {freshId : Uuid} {now : Instant} {w : Write}
  {undo : Undo} {journal : Journal} {fund : Uuid} {owner : String}

variable (fund owner) in
theorem activeOf_putEntry {e : Entry} (hnew : e.id ∉ t.entryIds) :
    (t.putEntry e).activeOf fund owner =
      (t.activeOf fund owner).or (if e.isActiveOf fund owner then some e else none) := by
  have hids : ∀ d ∈ t.entries, d.id ≠ e.id := by
    intro d hd hid
    exact hnew (hid ▸ List.mem_map_of_mem hd)
  simp only [activeOf, putEntry_entries hids, List.find?_append, List.find?_singleton]

/-- A write passes by an owner who has no entry, or gives the owner one. -/
theorem apply_lacking {rest : Journal} (new : Journal.NewIds fresh (w :: rest) t)
    (hnone : t.activeOf fund owner = none) (h : t.apply (fresh 0) now w = .ok (t', undo)) :
    (w.Passes fund owner (Journal.created (fun n => fresh (n + 1)) rest) ∧
      t'.activeOf fund owner = none) ∨
    (∃ d, w = .entry d ∧ t'.activeOf fund owner = some d) ∨
    ∃ units, w = .credit fund owner units ∧
      t'.activeOf fund owner = some (firstCredit (fresh 0) now fund owner units) := by
  cases applied h with
  | fund | transfer => exact Or.inl ⟨⟨nofun, nofun, nofun⟩, hnone⟩
  | @debit d units hd =>
    refine Or.inl ⟨⟨nofun, nofun, ?_⟩, ?_⟩
    · rintro _ _ hw hid
      cases hw
      exact new.unused d.id (List.mem_append_right _ hid) (List.mem_map_of_mem hd)
    · rwa [activeOf_setUnits, Option.map_eq_none_iff]
  | @entry d =>
    have hput := activeOf_putEntry fund owner (new.head d.id (List.mem_singleton_self _))
    by_cases hd : d.isActiveOf fund owner = true
    · rw [hnone, if_pos hd] at hput
      exact Or.inr (Or.inl ⟨d, rfl, hput⟩)
    · rw [hnone, if_neg hd] at hput
      refine Or.inl ⟨⟨?_, nofun, nofun⟩, hput⟩
      rintro _ hw
      cases hw
      exact hd
  | @credit d f o units found =>
    refine Or.inl ⟨⟨nofun, ?_, nofun⟩, ?_⟩
    · rintro _ _ _ hw ⟨rfl, rfl⟩
      cases hw
      cases hnone.symm.trans found
    · rwa [activeOf_setUnits, Option.map_eq_none_iff]
  | @creates f o units =>
    have hput := activeOf_putEntry fund owner
      (e := firstCredit (fresh 0) now f o units) (new.head _ (List.mem_singleton_self _))
    by_cases ho : f = fund ∧ o = owner
    · obtain ⟨rfl, rfl⟩ := ho
      have hown : (firstCredit (fresh 0) now f o units).isActiveOf f o = true :=
        isActiveOf_iff.mpr ⟨rfl, rfl, rfl⟩
      rw [hnone, if_pos hown] at hput
      exact Or.inr (Or.inr ⟨units, rfl, hput⟩)
    · have hother : ¬ (firstCredit (fresh 0) now f o units).isActiveOf fund owner = true := by
        intro hown
        obtain ⟨hf, howner, -⟩ := isActiveOf_iff.mp hown
        exact ho ⟨hf, howner⟩
      rw [hnone, if_neg hother] at hput
      refine Or.inl ⟨⟨nofun, ?_, nofun⟩, hput⟩
      rintro _ _ _ hw
      cases hw
      exact ho

/-- By induction on the writes, up to the first one that gives the owner an entry. -/
theorem applyAll_lacking {undos : List Undo} (keyed : t.Keyed) (new : journal.NewIds fresh t)
    (hnone : t.activeOf fund owner = none)
    (h : t.applyAll fresh now undos journal = (t', .ok ())) :
    Turnover fresh journal fund owner none (t'.activeOf fund owner) := by
  induction journal generalizing fresh t undos with
  | nil =>
    cases h
    rw [hnone]
    exact .lacks rfl rfl
  | cons w rest ih =>
    simp only [applyAll] at h
    split at h
    · rename_i next undo happly
      have keyed' := keyed.apply happly
      rcases apply_lacking new hnone happly with ⟨passes, hlacks⟩ | ⟨d, rfl, hgiven⟩ |
        ⟨units, rfl, hgiven⟩
      · exact (ih keyed' (new.tail happly) hlacks h).cons passes
      · have hlast := new.apart (List.mem_singleton_self d.id)
        obtain ⟨at_, hafter⟩ := applyAll_activeOf keyed' hgiven hlast h
        obtain ⟨hmem, rfl, rfl, hactive⟩ := mem_of_activeOf hgiven
        obtain ⟨-, hseen⟩ := applyAll_held keyed' hmem hactive hlast h
        have hstill := fun at_ =>
          Journal.moved_cons_still (w := .entry d) (e := d) rfl rfl rest at_
        rw [hafter, ← hstill]
        refine .enters ?_ ?_
        · rw [Journal.createdEntry_entry, if_pos (isActiveOf_iff.mpr ⟨rfl, rfl, hactive⟩)]
        · rw [hstill]
          exact hseen d.updatedAt
      · have hlast := new.apart (List.mem_singleton_self (fresh 0))
        obtain ⟨at_, hafter⟩ := applyAll_activeOf keyed' hgiven hlast h
        obtain ⟨hmem, -, -, hactive⟩ := mem_of_activeOf hgiven
        obtain ⟨hplain, -⟩ := applyAll_held keyed' hmem hactive hlast h
        have hmoved : Journal.moved rest at_ (firstCredit (fresh 0) now fund owner units) =
            Journal.moved (.credit fund owner units :: rest) at_
              (firstCredit (fresh 0) now fund owner 0) := by
          rw [Journal.moved_cons _ rest at_ now]
          simp [Write.outgoing, Write.incoming, firstCredit, repriced]
        rw [hafter, hmoved]
        exact .earns hplain (by simp [Journal.credits])
          (List.mem_append_left _ (List.mem_singleton_self _))
    · cases h

/-- What a commit that goes through makes of the entry of an owner. -/
theorem commit_turnover (keyed : t.Keyed) (new : journal.NewIds fresh t)
    (h : t.commit fresh now journal = (t', .ok ())) (fund : Uuid) (owner : String) :
    Turnover fresh journal fund owner (t.activeOf fund owner) (t'.activeOf fund owner) := by
  cases hbefore : t.activeOf fund owner with
  | none => exact applyAll_lacking keyed new hbefore h
  | some e =>
    have hactive := isActiveOf_iff.mpr (mem_of_activeOf hbefore).2
    obtain ⟨hmem, rfl, rfl, -⟩ := mem_of_activeOf hbefore
    have hold : e.id ∉ Journal.created fresh journal := fun hid =>
      new.unused e.id hid (List.mem_map_of_mem hmem)
    obtain ⟨hplain, hseen⟩ := applyAll_held keyed hmem (isActiveOf_iff.mp hactive).2.2 hold h
    obtain ⟨at_, hafter⟩ := applyAll_activeOf keyed hbefore hold h
    rw [hafter]
    exact .keeps hactive hplain (hseen e.updatedAt)

end Tables

namespace Turnover

variable {fresh : Nat → Uuid} {j : Journal} {fund : Uuid} {owner : String}
  {before after : Option Entry}

/-- Who has an entry afterwards: who had one before, whoever the journal creates one for, and whoever
it credits. -/
theorem isSome (h : Turnover fresh j fund owner before after) :
    after.isSome = (before.isSome || (j.createdEntry fund owner).isSome || j.credits fund owner) := by
  cases h with
  | keeps => rfl
  | lacks plain uncredited => rw [plain, uncredited]; rfl
  | enters created => rw [created]; rfl
  | earns plain credited => rw [plain, credited]; rfl

theorem units {e : Entry} (h : Turnover fresh j fund owner before (some e)) :
    e.units = unitsOf before + unitsOf (j.createdEntry fund owner) + j.incoming fund owner -
      j.outgoing e.id := by
  have hmoved : ∀ {d : Entry} (at_ : Instant), d.isActiveOf fund owner = true →
      (j.moved at_ d).units = d.units + j.incoming fund owner - j.outgoing (j.moved at_ d).id := by
    intro d at_ own
    obtain ⟨rfl, rfl, -⟩ := Tables.isActiveOf_iff.mp own
    simp only [Journal.moved, repriced]
    omega
  cases h with
  | keeps own plain => simp [hmoved _ own, plain, unitsOf]
  | enters created =>
    simp [hmoved _ (Journal.mem_of_createdEntry created).2, created, unitsOf]
  | @earns id now at_ plain =>
    rw [hmoved at_ (Tables.isActiveOf_iff.mpr ⟨rfl, rfl, rfl⟩)]
    simp [plain, unitsOf, firstCredit]

end Turnover

end UnitLedger.Memory
