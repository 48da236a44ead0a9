import UnitLedger.Proofs.Ledger.Deadlock
import UnitLedger.Proofs.Ledger.Onward
import UnitLedger.Proofs.Ledger.Reference
import UnitLedger.Proofs.Memory.Listings
import UnitLedger.Proofs.Naming
import UnitLedger.Proofs.Service.Reading

/-!
  UnitLedger.Proofs.Ledger.Readings — the two ways to read who holds a fund agree.

  One reader looks an owner up by name, the other pages through the cap table. Names are trimmed and
  measured on the way into the store and once more when an owner is looked up; since every stored name is
  its own stored form (`nameable_run`), every row can be looked up under the name that it shows. So what
  the look-up finds is the one row of this owner, and what it misses is not in the table
  (`readings_agree`).
-/

namespace UnitLedger.Ledger

open Concurrent Memory

/-! ## Stored names -/

structure Nameable (t : Tables) : Prop where
  funds : ∀ f ∈ t.funds, Name.IsStored f.name
  entries : ∀ e ∈ t.entries, Name.IsStored e.owner
  transfers : ∀ r ∈ t.transfers, Name.IsStored r.source ∧ Name.IsStored r.target

section Names

variable {s s' : System Stage} {event : Event} {raw stored : String}

/-- Whatever a caller wrote as a name, what is made of it has the form of a stored name. -/
theorem isStored_of_normalize? (h : Name.normalize? raw = some stored) : Name.IsStored stored :=
  Name.isStored_iff.mpr (Name.normalize?_stored h)

theorem Nameable.founded {t : Tables} (h : Nameable t) {f : Fund} {e : Entry}
    (hid : e.id ∉ t.entryIds) (hname : Name.IsStored f.name) (howner : Name.IsStored e.owner) :
    Nameable (t.founded f e) := by
  constructor
  · intro g hg
    rcases List.mem_append.mp hg with hg | hg
    · exact h.funds g hg
    · exact List.mem_singleton.mp hg ▸ hname
  · intro d hd
    rw [Tables.founded_entries hid] at hd
    rcases List.mem_append.mp hd with hd | hd
    · exact h.entries d hd
    · exact List.mem_singleton.mp hd ▸ howner
  · exact h.transfers

/-- The entry of a new owner has the record's target as its owner; no other entry changes its owner. -/
theorem Nameable.settled {t : Tables} (h : Nameable t) (wf : t.WellFormed) {id : Uuid} {now : Instant}
    {e : Entry} {r : Transfer} (admits : t.Admits e r) (hid : id ∉ t.entryIds)
    (hsource : Name.IsStored r.source) (htarget : Name.IsStored r.target) :
    Nameable (t.settled id now e r) := by
  constructor
  · rw [Tables.settled_funds]
    exact h.funds
  · intro d hd
    rw [Tables.settled_entries wf admits hid] at hd
    rcases List.mem_append.mp hd with hd | hd
    · obtain ⟨old, hold, rfl⟩ := List.mem_map.mp hd
      rw [Tables.adjusted_owner]
      exact h.entries old hold
    · split at hd
      · cases hd
      · exact List.mem_singleton.mp hd ▸ htarget
  · intro r' hr'
    rw [Tables.settled_transfers] at hr'
    rcases List.mem_append.mp hr' with hr' | hr'
    · exact h.transfers r' hr'
    · exact List.mem_singleton.mp hr' ▸ ⟨hsource, htarget⟩

theorem Nameable.step (h : Nameable s.world.tables) (sound : Sound s) (hs : s.Step event s')
    (hids : DistinctIds s'.world.fresh s'.world.used) : Nameable s'.world.tables := by
  cases hs with
  | ignored | arrives => exact h
  | @moves p now c w σ answered caller unfinished move =>
    rw [System.moved_tables]
    have origin := sound.origin p c caller
    cases sound.change caller move (by simpa using hids) with
    | same tables => exact tables ▸ h
    | reset _ tables =>
      rw [tables]
      exact ⟨nofun, nofun, nofun⟩
    | @founded f e stage _ _ tables =>
      have hrows : c.progress.founding? = some (f, e) := by
        rw [stage]
        rfl
      obtain ⟨_, _, _, -, accepted, accepted'⟩ := origin.founding f e hrows
      rw [tables]
      exact h.founded (sound.founding_new caller unfinished hrows).1
        (isStored_of_normalize? accepted.name) (isStored_of_normalize? accepted'.owner)
    | @settled o source r e id stage _ admits unused _ tables =>
      obtain ⟨recordId, t, hr⟩ := origin.record o source r stage
      obtain ⟨request, -, hvalid⟩ := origin.order o (by rw [stage]; rfl)
      have accepted := TransferOrder.accepted hvalid
      subst hr
      rw [tables]
      exact h.settled sound.tables admits (fun hmem => unused (sound.entryIds_drawn hmem))
        (isStored_of_normalize? accepted.source) (isStored_of_normalize? accepted.target)

theorem nameable_run {fresh : Nat → Uuid} (es : List Event)
    (hids : DistinctIds fresh ((System.opened fresh {}).run stages es).world.used) :
    Nameable ((System.opened fresh {}).run stages es).world.tables := by
  refine (System.run_induction (I := fun s => Sound s ∧ Nameable s.world.tables)
    ⟨sound_opened fresh, nofun, nofun, nofun⟩ ?_ es hids).2
  intro s e s' ⟨sound, nameable⟩ hs hids
  exact ⟨sound.step hs hids, nameable.step sound hs hids⟩

end Names

/-! ## The two readings -/

/-- The rows of a fund's cap table, read in pages of `k` rows from the first one on, as long as the next
page begins below the total that the first one tells. -/
def tableRows (w : World) (p : Party) (now : Instant) (fund : Uuid) (k : Nat) : List Entry :=
  let page := fun offset : Nat =>
    (w.serve p now (Service.getCapTable fund ⟨some k, some offset⟩)).2.toOption.map (·.entries)
  (offsets k ((page 0).elim 0 (·.total))).flatMap fun offset => (page offset).elim [] (·.items)

section Readings

variable {w : World} {p : Party} {now : Instant} {fund : Uuid} {k : Nat} {raw name : String}

theorem tableRows_missing (h : w.tables.findFund fund = none) : tableRows w p now fund k = [] := by
  unfold tableRows
  simp only [w.serve_getCapTable_missing p now h]
  exact List.flatMap_eq_nil_iff.mpr fun _ _ => rfl

/-- The pages of the cap table are together the listing of the fund's entries. -/
theorem tableRows_eq {f : Fund} (h : w.tables.findFund fund = some f) (hmin : 1 ≤ k) (hmax : k ≤ 1000) :
    tableRows w p now fund k = w.tables.entryListing fund := by
  unfold tableRows
  simp only [w.serve_getCapTable p now h, ListParams.window_of_inRange hmin hmax,
    Page.ofList_natCast]
  exact flatMap_offsets hmin _

theorem mem_entries_of_tableRows (hmin : 1 ≤ k) (hmax : k ≤ 1000) {e : Entry}
    (he : e ∈ tableRows w p now fund k) : e ∈ w.tables.entries := by
  cases hfund : w.tables.findFund fund with
  | none =>
    rw [tableRows_missing hfund] at he
    cases he
  | some f =>
    rw [tableRows_eq hfund hmin hmax] at he
    exact (Tables.mem_entryListing.mp he).1

theorem of_filter_eq_singleton {α : Type} {l : List α} {q : α → Bool} {a : α} (h : l.filter q = [a]) :
    a ∈ l ∧ q a = true :=
  List.mem_filter.mp (h ▸ List.mem_singleton_self a)

/-- The look-up of an owner finds the one row of this owner in the listing. -/
theorem filter_entryListing {t : Tables} (wf : t.WellFormed) {e : Entry} :
    (t.entryListing fund).filter (·.owner == name) = [e] ↔ t.activeOf fund name = some e := by
  constructor
  · intro h
    obtain ⟨hlisted, howner⟩ := of_filter_eq_singleton h
    obtain ⟨he, hfund, -⟩ := Tables.mem_entryListing.mp hlisted
    exact wf.activeOf_eq_some.mpr ⟨he, hfund, beq_iff_eq.mp howner⟩
  · intro h
    obtain ⟨he, hfund, howner⟩ := wf.activeOf_eq_some.mp h
    have hnodup : (t.entryListing fund).Nodup :=
      (List.mergeSort_perm _ _).nodup_iff.mpr (entriesOf_nodup wf fund)
    refine filter_eq_singleton hnodup (Tables.mem_entryListing.mpr ⟨he, hfund, wf.active e he⟩) ?_
    intro d hd
    obtain ⟨hd, hdf, -⟩ := Tables.mem_entryListing.mp hd
    rw [beq_iff_eq]
    constructor
    · intro hdo
      exact wf.eq_of_holder hd he (hdf.trans hfund.symm) (hdo.trans howner.symm)
    · intro hde
      rw [hde, howner]

theorem trimmed_of_normalize? (h : Name.normalize? raw = some name) : trimmed raw = name := by
  rw [normalize?_eq] at h
  split at h
  · cases h
  · exact Option.some.inj h

/-- What is refused as a name has no stored form after trimming either. -/
theorem not_isStored_trimmed (h : Name.normalize? raw = none) : ¬ Name.IsStored (trimmed raw) := by
  rintro ⟨-, hmin, hmax⟩
  have hallowed : ¬ Unnameable (trimmed raw) := by
    unfold Unnameable Name.maxLength at *
    omega
  rw [normalize?_eq, if_neg hallowed] at h
  cases h

theorem getOwnership_finds (wf : w.tables.WellFormed) (nameable : Nameable w.tables) (hmin : 1 ≤ k)
    (hmax : k ≤ 1000) {e : Entry} :
    w.serve p now (Service.getOwnership fund raw) = (w, .ok e) ↔
      (tableRows w p now fund k).filter (·.owner == trimmed raw) = [e] := by
  cases hname : Name.normalize? raw with
  | none =>
    rw [w.serve_getOwnership_unnamed p now hname]
    refine iff_of_false (fun h => nomatch (Prod.mk.inj h).2) fun h => ?_
    -- The look-up is refused without asking the store, so no row may have the trimmed text as its owner.
    obtain ⟨hrow, howner⟩ := of_filter_eq_singleton h
    refine not_isStored_trimmed hname ?_
    rw [← beq_iff_eq.mp howner]
    exact nameable.entries e (mem_entries_of_tableRows hmin hmax hrow)
  | some stored =>
    rw [trimmed_of_normalize? hname]
    cases hfund : w.tables.findFund fund with
    | none =>
      rw [w.serve_getOwnership_missing p now hname hfund, tableRows_missing hfund]
      exact iff_of_false (fun h => nomatch (Prod.mk.inj h).2) (fun h => nomatch h)
    | some f =>
      rw [w.serve_getOwnership p now hname hfund, tableRows_eq hfund hmin hmax, filter_entryListing wf]
      cases w.tables.activeOf fund stored with
      | none => simp
      | some d => simp

theorem getOwnership_misses (wf : w.tables.WellFormed) (hmin : 1 ≤ k) (hmax : k ≤ 1000) :
    w.serve p now (Service.getOwnership fund raw) = (w, .error (.ownerNotFound fund name)) ↔
      (w.tables.findFund fund).isSome ∧ Name.normalize? raw = some name ∧
        ∀ e ∈ tableRows w p now fund k, e.owner ≠ name := by
  cases hname : Name.normalize? raw with
  | none =>
    rw [w.serve_getOwnership_unnamed p now hname]
    simp
  | some stored =>
    cases hfund : w.tables.findFund fund with
    | none =>
      rw [w.serve_getOwnership_missing p now hname hfund]
      simp
    | some f =>
      rw [w.serve_getOwnership p now hname hfund, tableRows_eq hfund hmin hmax]
      cases hactive : w.tables.activeOf fund stored with
      | some d =>
        obtain ⟨hd, hdf, hdo⟩ := wf.activeOf_eq_some.mp hactive
        have hlisted : d ∈ w.tables.entryListing fund :=
          Tables.mem_entryListing.mpr ⟨hd, hdf, wf.active d hd⟩
        refine iff_of_false (fun h => nomatch (Prod.mk.inj h).2) ?_
        intro ⟨_, hsame, hnone⟩
        exact hnone d hlisted (hdo.trans (Option.some.inj hsame))
      | none =>
        constructor
        · intro h
          obtain rfl : stored = name := by simpa using h
          refine ⟨rfl, rfl, fun e he howner => ?_⟩
          obtain ⟨he, hef, -⟩ := Tables.mem_entryListing.mp he
          exact wf.activeOf_eq_none.mp hactive e he ⟨hef, howner⟩
        · intro ⟨_, hsame, _⟩
          rw [Option.some.inj hsame]
          rfl

end Readings

/-- The rows of the cap table hold the units that it reports. -/
theorem tableRows_total {s : System Stage} (conserved : Conserved s) {p : Party} {now : Instant}
    {fund : Uuid} {k : Nat} (hmin : 1 ≤ k) (hmax : k ≤ 1000) {params : ListParams} {table : CapTable}
    (h : s.world.serve p now (Service.getCapTable fund params) = (s.world, .ok table)) :
    ((tableRows s.world p now fund k).map (·.units)).sum = table.totalUnits := by
  cases hfund : s.world.tables.findFund fund with
  | none =>
    rw [s.world.serve_getCapTable_missing p now hfund] at h
    cases (Prod.mk.inj h).2
  | some f =>
    rw [s.world.serve_getCapTable p now hfund] at h
    cases (Prod.mk.inj h).2
    have hid : f.id = fund := by simpa using List.find?_some hfund
    obtain ⟨first, -, acc⟩ := conserved.accounts f (List.mem_of_find?_eq_some hfund)
    have hperm : (s.world.tables.entryListing fund).Perm (entriesOf s.world.tables fund) :=
      List.mergeSort_perm _ _
    rw [tableRows_eq hfund hmin hmax, (hperm.map (·.units)).sum_eq, ← acc.total, hid]
    rfl

/-- In every state of every run each stored name is its own stored form. A look-up by any text finds an
entry exactly if this is the one row of the fund's cap table, through all its pages, whose owner has the
trimmed text as name; it misses the owner exactly if the fund exists, the text is a name, and no row has
this owner. The rows of all pages sum to the units that the cap table reports. -/
theorem readings_agree {fresh : Nat → Uuid} (es : List Event)
    (hids : DistinctIds fresh (ledger fresh es).world.used) (p : Party) (now : Instant) :
    let w := (ledger fresh es).world
    (∀ f ∈ w.tables.funds, Name.normalize? f.name = some f.name) ∧
    (∀ e ∈ w.tables.entries, Name.normalize? e.owner = some e.owner) ∧
    (∀ r ∈ w.tables.transfers,
      Name.normalize? r.source = some r.source ∧ Name.normalize? r.target = some r.target) ∧
    ∀ (fund : Uuid) (k : Nat), 1 ≤ k → k ≤ 1000 →
      let rows := tableRows w p now fund k
      (∀ raw e, w.serve p now (Service.getOwnership fund raw) = (w, .ok e) ↔
        rows.filter (·.owner == trimmed raw) = [e]) ∧
      (∀ raw name,
        w.serve p now (Service.getOwnership fund raw) = (w, .error (.ownerNotFound fund name)) ↔
          (w.tables.findFund fund).isSome ∧ Name.normalize? raw = some name ∧
            ∀ e ∈ rows, e.owner ≠ name) ∧
      ∀ params table, w.serve p now (Service.getCapTable fund params) = (w, .ok table) →
        (rows.map (·.units)).sum = table.totalUnits := by
  rw [ledger_world] at hids ⊢
  obtain ⟨sound, conserved⟩ := conserved_run es hids
  have nameable := nameable_run es hids
  intro w
  refine ⟨?_, ?_, ?_, fun fund k hmin hmax => ⟨?_, ?_, ?_⟩⟩
  · exact fun f hf => Name.isStored_iff.mp (nameable.funds f hf)
  · exact fun e he => Name.isStored_iff.mp (nameable.entries e he)
  · intro r hr
    obtain ⟨hsource, htarget⟩ := nameable.transfers r hr
    exact ⟨Name.isStored_iff.mp hsource, Name.isStored_iff.mp htarget⟩
  · exact fun raw e => getOwnership_finds sound.tables nameable hmin hmax
  · exact fun raw name => getOwnership_misses sound.tables hmin hmax
  · exact fun params table h => tableRows_total conserved hmin hmax h

/-! ## After a gift -/

def giftWorld : World := (ledger Uuid.ofNat gift).world

def bensGift : Entry :=
  { id := Uuid.ofNat 8, fund := Uuid.ofNat 0, owner := "Ben", units := 4, acquiredAt := ⟨3⟩,
    updatedAt := ⟨3⟩, state := .active }

def hullFund : Fund := ⟨Uuid.ofNat 0, "Hull", 10, ⟨0⟩⟩

/-- Whichever way it is read: of Hull's ten units Ben has the four that Ada gave him, and Cleo is not
among the owners. -/
theorem gift_read :
    let rows := tableRows giftWorld 9 ⟨9⟩ (Uuid.ofNat 0) 1
    DistinctIds Uuid.ofNat giftWorld.used ∧
      giftWorld.serve 9 ⟨9⟩ (Service.getOwnership (Uuid.ofNat 0) "\tBen ") =
        (giftWorld, .ok bensGift) ∧
      rows.filter (·.owner == trimmed "\tBen ") = [bensGift] ∧
      giftWorld.serve 9 ⟨9⟩ (Service.getOwnership (Uuid.ofNat 0) "Cleo") =
        (giftWorld, .error (.ownerNotFound (Uuid.ofNat 0) "Cleo")) ∧
      (∀ e ∈ rows, e.owner ≠ "Cleo") ∧ (rows.map (·.units)).sum = 10 := by
  intro rows
  have hids : DistinctIds Uuid.ofNat giftWorld.used := by decide +kernel
  have hfund : giftWorld.tables.findFund (Uuid.ofNat 0) = some hullFund := by decide +kernel
  have hben : Name.normalize? "\tBen " = some "Ben" := by decide +kernel
  have hcleo : Name.normalize? "Cleo" = some "Cleo" := by decide +kernel
  have hfound : giftWorld.tables.activeOf (Uuid.ofNat 0) "Ben" = some bensGift := by decide +kernel
  have hmissed : giftWorld.tables.activeOf (Uuid.ofNat 0) "Cleo" = none := by decide +kernel
  have hread := giftWorld.serve_getOwnership 9 ⟨9⟩ hben hfund
  have hunread := giftWorld.serve_getOwnership 9 ⟨9⟩ hcleo hfund
  rw [hfound] at hread
  rw [hmissed] at hunread
  obtain ⟨-, -, -, hagree⟩ := readings_agree gift hids 9 ⟨9⟩
  obtain ⟨hfinds, hmisses, htotal⟩ := hagree (Uuid.ofNat 0) 1 (by decide) (by decide)
  refine ⟨hids, hread, (hfinds _ _).mp hread, hunread, ((hmisses _ _).mp hunread).2.2, ?_⟩
  exact htotal {} _ (giftWorld.serve_getCapTable 9 ⟨9⟩ hfund {})

end UnitLedger.Ledger
