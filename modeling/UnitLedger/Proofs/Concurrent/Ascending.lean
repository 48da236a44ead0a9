import Mathlib.Data.String.Basic
import Mathlib.Logic.Relation
import UnitLedger.Proofs.Concurrent.Missed

/-!
  UnitLedger.Proofs.Concurrent.Ascending — the order in which transfers lock rows.

  The locking operation asks for rows in the order of their owners' names, and a credit asks for the
  row of its target last. So the rows that a transfer asks for ascend, unless its credit comes back to
  a target that the locking operation did not find and whose name comes before the source's (`Late`).
  Along a chain of transfers that wait for each other, none of them late, the rows that they wait for
  ascend, and the chain does not close (`Untangled.cycle`).
-/

namespace UnitLedger.Memory.World

theorem mem_insertOwner {owner x : String} {owners : List String} :
    x ∈ insertOwner owner owners ↔ x = owner ∨ x ∈ owners := by
  induction owners with
  | nil => simp [insertOwner]
  | cons first rest ih =>
    unfold insertOwner
    split
    · rename_i heq
      simp [heq]
    · split
      · exact List.mem_cons
      · simp only [List.mem_cons, ih]
        exact or_left_comm

theorem insertOwner_ascending {owner : String} {owners : List String}
    (h : owners.Pairwise (· < ·)) : (insertOwner owner owners).Pairwise (· < ·) := by
  induction owners with
  | nil => simp [insertOwner]
  | cons first rest ih =>
    obtain ⟨hfirst, hrest⟩ := List.pairwise_cons.mp h
    unfold insertOwner
    split
    · exact h
    · rename_i hne
      split
      · rename_i hlt
        refine List.pairwise_cons.mpr ⟨fun x hx => ?_, h⟩
        rcases List.mem_cons.mp hx with rfl | hx
        · exact hlt
        · exact lt_trans hlt (hfirst x hx)
      · rename_i hnlt
        refine List.pairwise_cons.mpr ⟨fun x hx => ?_, ih hrest⟩
        rcases mem_insertOwner.mp hx with rfl | hx
        · exact lt_of_le_of_ne (not_lt.mp hnlt) (Ne.symm hne)
        · exact hfirst x hx

theorem lockOrder_ascending (owners : List String) : (lockOrder owners).Pairwise (· < ·) := by
  induction owners with
  | nil => exact .nil
  | cons owner rest ih => exact insertOwner_ascending ih

end UnitLedger.Memory.World

namespace UnitLedger.Concurrent

open Memory (Party World Tables RowLocks)
open Store (Op)
open Relation (TransGen ReflTransGen)

def Ascends (t : Tables) (a b : Uuid) : Prop :=
  ∃ x ∈ t.entries, ∃ y ∈ t.entries, x.id = a ∧ y.id = b ∧ x.fund = y.fund ∧ x.owner < y.owner

section Order

variable {t : Tables} {a b d : Uuid}

theorem Ascends.irrefl (wf : t.WellFormed) : ¬ Ascends t a a := by
  rintro ⟨x, hx, y, hy, hxa, hya, -, hlt⟩
  obtain rfl := wf.eq_of_id hx hy (hxa.trans hya.symm)
  exact lt_irrefl _ hlt

theorem Ascends.trans (wf : t.WellFormed) (h : Ascends t a b) (h' : Ascends t b d) :
    Ascends t a d := by
  obtain ⟨x, hx, y, hy, hxa, hyb, hfund, hlt⟩ := h
  obtain ⟨y', hy', z, hz, hyb', hzd, hfund', hlt'⟩ := h'
  obtain rfl := wf.eq_of_id hy hy' (hyb.trans hyb'.symm)
  exact ⟨x, hx, z, hz, hxa, hzd, hfund.trans hfund', lt_trans hlt hlt'⟩

end Order

def Stage.Credits (o : TransferOrder) : Stage → Prop
  | .crediting o' _ | .creditWaiting o' _ => o' = o
  | _ => False

/-- The transfer comes back to a target that it did not find, and the target is before its source. -/
structure Late (missed : Party → TransferOrder → Prop) (s : System Stage) (p : Party)
    (o : TransferOrder) : Prop where
  credits : ∃ c, s.caller p = some c ∧ c.progress.Credits o
  backwards : o.target < o.source
  missed : missed p o

structure Untangled (young : Party → Prop) (missed : Party → TransferOrder → Prop)
    (s : System Stage) : Prop where
  steady : Steady young s
  all : ∀ p, young p
  lined : Lined s
  provided : ∀ p c, s.caller p = some c →
    Provided (Leads s.world.tables s.world.locks p) (missed p) c.progress

namespace Untangled

variable {young : Party → Prop} {missed : Party → TransferOrder → Prop} {s s' : System Stage}
  {p q : Party} {c : Caller Stage} {now : Instant} {w : World} {σ : Stage} {answered : Option Op}
  {o : TransferOrder} {a b : Uuid}

section Stages

variable (h : Untangled young missed s) (hc : s.caller p = some c)

include h hc

theorem differ (ho : c.progress.order? = some o) : o.source ≠ o.target := by
  obtain ⟨request, -, hvalid⟩ := (h.steady.sound.origin p c hc).order o ho
  exact (TransferOrder.accepted hvalid).differ

/-- Whoever waits inside the locking operation stands in other lines only of owners that it is done
with. -/
theorem done_of_line {row : Uuid} {rest done : List String} {locked : List Entry} {owner : String}
    (hstage : c.progress = .lockWaiting o row rest locked)
    (haw : Awaits s.world.tables o row rest locked done owner) (hmem : p ∈ s.world.locks.line a) :
    a = row ∨ ∃ x ∈ s.world.tables.entries, x.id = a ∧ x.fund = o.fund ∧ x.owner ∈ done := by
  obtain ⟨d, o', -, -, x, hx, rfl, -⟩ := h.lined.asked p a hmem
  refine ((h.steady.guarded.waits p c o row rest locked hc hstage).2 x hx hmem).imp_right ?_
  rintro ⟨y, hy, hyx⟩
  obtain ⟨hfund, hroot⟩ := h.steady.sound.locked p c o row rest locked hc hstage y hy
  obtain ⟨hxf, hxo⟩ := hroot.2 x hx hyx.symm
  exact ⟨x, hx, rfl, hxf.trans hfund, hxo ▸ haw.locked y hy⟩

/-- The row of a credit's target comes after every other row that the transfer has asked for, or the
target comes before the source. -/
theorem credit_ascends (hstage : c.progress.Credits o) {d : Entry}
    (target : s.world.tables.activeOf o.fund o.target = some d) (hmem : p ∈ s.world.locks.line a)
    (hne : a ≠ d.id) : Ascends s.world.tables a d.id ∨ o.target < o.source := by
  have ho : c.progress.order? = some o := by
    cases hσ : c.progress with
    | crediting | creditWaiting =>
      rw [hσ] at hstage
      exact congrArg some hstage
    | _ =>
      rw [hσ] at hstage
      exact hstage.elim
  obtain ⟨hd, hdf, hdo, -⟩ := Tables.mem_of_activeOf target
  obtain ⟨c', o', hc', ho', x, hx, rfl, hxf, hxo⟩ := h.lined.asked p a hmem
  rw [hc] at hc'
  cases hc'
  rw [ho] at ho'
  cases ho'
  rcases hxo with hsource | htarget
  · rcases lt_trichotomy o.source o.target with hlt | heq | hgt
    · exact Or.inl ⟨x, hx, d, hd, rfl, rfl, hxf.trans hdf.symm, by rwa [hsource, hdo]⟩
    · exact absurd heq (h.differ hc ho)
    · exact Or.inr hgt
  · have hxd := h.steady.sound.tables.eq_of_holder hx hd (hxf.trans hdf.symm) (htarget.trans hdo.symm)
    exact absurd (congrArg Entry.id hxd) hne

end Stages

/-! ## Waiting -/

/-- A transfer that holds a row and waits for another one waits upwards, or it is late. -/
theorem waits (h : Untangled young missed s) (hheld : (s.world.locks.line a).head? = some p)
    (hqueued : s.world.locks.Queued p b) :
    Ascends s.world.tables a b ∨ ∃ o, Late missed s p o := by
  have hmem := List.mem_of_mem_head? hheld
  have hne : a ≠ b := by
    rintro rfl
    exact hqueued.2 hheld
  obtain ⟨c, hc, hrow⟩ := h.lined.queued p b hqueued
  cases hstage : c.progress with
  | lockWaiting o row rest locked =>
    rw [hstage] at hrow
    obtain rfl : row = b := hrow
    obtain ⟨done, owner, haw⟩ := h.steady.lasting.awaits p c o row rest locked (h.all p) hc hstage
    obtain ⟨d, hd, hdrow, hdf, hdo⟩ := haw.row
    obtain ⟨x, hx, hxa, hxf, hxo⟩ := (h.done_of_line hc hstage haw hmem).resolve_left hne
    have hascending := World.lockOrder_ascending [o.source, o.target]
    rw [haw.order] at hascending
    have hlt : x.owner < d.owner :=
      hdo ▸ (List.pairwise_append.mp hascending).2.2 _ hxo _ List.mem_cons_self
    exact Or.inl ⟨x, hx, d, hd, hxa, hdrow, hxf.trans hdf.symm, hlt⟩
  | creditWaiting o e =>
    rw [hstage] at hrow
    obtain ⟨d, target, rfl⟩ := hrow
    have hcredits : c.progress.Credits o := by rw [hstage]; rfl
    refine (h.credit_ascends hc hcredits target hmem hne).imp_right fun hgt => ?_
    have hmissed := h.provided p c hc
    rw [hstage] at hmissed
    exact ⟨o, ⟨c, hc, hcredits⟩, hgt, hmissed⟩
  | _ =>
    rw [hstage] at hrow
    exact hrow.elim

/-- A party waits for one row. -/
theorem one_row (h : Untangled young missed s) (ha : s.world.locks.Queued p a)
    (hb : s.world.locks.Queued p b) : a = b := by
  obtain ⟨c, hc, hrow⟩ := h.lined.queued p a ha
  obtain ⟨c', hc', hrow'⟩ := h.lined.queued p b hb
  rw [hc] at hc'
  cases hc'
  cases hstage : c.progress with
  | lockWaiting o row rest locked =>
    rw [hstage] at hrow hrow'
    exact hrow.symm.trans hrow'
  | creditWaiting o e =>
    rw [hstage] at hrow hrow'
    obtain ⟨d, target, rfl⟩ := hrow
    obtain ⟨d', target', rfl⟩ := hrow'
    rw [target] at target'
    cases target'
    rfl
  | _ =>
    rw [hstage] at hrow
    exact hrow.elim

/-- Along a chain of parties that wait for each other the rows ascend, if none of them is late. -/
theorem chain (h : Untangled young missed s) (hchain : TransGen s.world.locks.WaitsFor p q)
    (ha : s.world.locks.Queued p a) (hb : s.world.locks.Queued q b) :
    Ascends s.world.tables a b ∨ ∃ r o, TransGen s.world.locks.WaitsFor p r ∧
      ReflTransGen s.world.locks.WaitsFor r q ∧ Late missed s r o := by
  -- Who is waited for holds the row, and waits upwards from there.
  have hlink : ∀ {r q : Party} {a b : Uuid}, s.world.locks.WaitsFor r q →
      s.world.locks.Queued r a → s.world.locks.Queued q b →
      Ascends s.world.tables a b ∨ ∃ o, Late missed s q o := by
    intro r q a b hwaits ha hb
    obtain ⟨row, hqueued, hhead⟩ := hwaits.queued h.steady.guarded.sane.tidy h.lined.single
    obtain rfl := h.one_row ha hqueued
    exact h.waits hhead hb
  induction hchain generalizing b with
  | single hwaits =>
    exact (hlink hwaits ha hb).imp_right fun ⟨o, hlate⟩ => ⟨_, o, .single hwaits, .refl, hlate⟩
  | @tail r q hchain hwaits ih =>
    obtain ⟨row, hqueued, -⟩ := hwaits.queued h.steady.guarded.sane.tidy h.lined.single
    rcases ih hqueued with hbelow | ⟨r', o, hto, hfrom, hlate⟩
    · exact (hlink hwaits hqueued hb).imp (hbelow.trans h.steady.sound.tables)
        fun ⟨o, hlate⟩ => ⟨q, o, hchain.tail hwaits, .refl, hlate⟩
    · exact Or.inr ⟨r', o, hto, hfrom.tail hwaits, hlate⟩

/-- Among transfers that wait for each other in a cycle, one is late. -/
theorem cycle (h : Untangled young missed s) (hcycle : TransGen s.world.locks.WaitsFor p p) :
    ∃ q o, TransGen s.world.locks.WaitsFor p q ∧ TransGen s.world.locks.WaitsFor q p ∧
      Late missed s q o := by
  obtain ⟨q, hwaits, -⟩ := TransGen.head'_iff.mp hcycle
  obtain ⟨row, hqueued, -⟩ := hwaits.queued h.steady.guarded.sane.tidy h.lined.single
  rcases h.chain hcycle hqueued hqueued with hself | ⟨r, o, hto, hfrom, hlate⟩
  · exact absurd hself (Ascends.irrefl h.steady.sound.tables)
  · refine ⟨r, o, hto, ?_, hlate⟩
    rcases Relation.reflTransGen_iff_eq_or_transGen.mp hfrom with rfl | hback
    · exact hcycle
    · exact hback

/-! ## Asking -/

theorem move_asks (h : Untangled young missed s) (hc : s.caller p = some c)
    (move : Stage.Move s.world p now c.progress w σ answered) (ha : p ∈ s.world.locks.line a)
    (hnew : p ∉ s.world.locks.line b) (hb : p ∈ w.locks.line b) :
    Ascends s.world.tables a b ∨ ∃ o, Late missed s p o := by
  have hne : a ≠ b := by
    rintro rfl
    exact hnew ha
  rcases move.lines h.steady.guarded.sane hb with hold | ⟨o, out, run⟩ | ⟨o, e, d, hstage, target, rfl⟩
  · exact absurd hold hnew
  · obtain ⟨before, owners, first, view⟩ :=
      h.steady.lasting.lockView h.steady.sound (h.all p) hc run
    have hlines := World.lockRows_lines (p := p) o.fund owners first h.steady.guarded.sane b
    rw [view.run] at hlines
    obtain ⟨y, hy, rfl⟩ := (hlines hb).resolve_left hnew
    obtain ⟨hymem, hyf, hyo⟩ := World.mem_found hy
    -- What was asked for before belongs to the owners before.
    have hbefore : ∃ x ∈ s.world.tables.entries, x.id = a ∧ x.fund = o.fund ∧ x.owner ∈ before := by
      rcases view.stage with ⟨hstage, -⟩ | ⟨row, locked, done, owner, d, hstage, -, haw, hd, rfl, hdf,
        hdo, rfl, -⟩
      · refine absurd ha (h.steady.guarded.early p (fun c' hc' => ?_) a)
        rw [hc] at hc'
        cases hc'
        rw [hstage]
        trivial
      · rcases h.done_of_line hc hstage haw ha with rfl | ⟨x, hx, hxa, hxf, hxo⟩
        · exact ⟨d, hd, rfl, hdf, by simp [hdo]⟩
        · exact ⟨x, hx, hxa, hxf, List.mem_append_left _ hxo⟩
    obtain ⟨x, hx, hxa, hxf, hxo⟩ := hbefore
    have hascending := World.lockOrder_ascending [o.source, o.target]
    rw [view.order] at hascending
    exact Or.inl ⟨x, hx, y, hymem, hxa, rfl, hxf.trans hyf.symm,
      (List.pairwise_append.mp hascending).2.2 _ hxo _ hyo⟩
  · have hcredits : c.progress.Credits o := by rw [hstage]; rfl
    refine (h.credit_ascends hc hcredits target ha hne).imp_right fun hgt => ?_
    have hprovided := h.provided p c hc
    rw [hstage] at hprovided
    refine ⟨o, ⟨c, hc, hcredits⟩, hgt, Or.resolve_left hprovided ?_⟩
    rintro ⟨d', target', hhead⟩
    rw [target] at target'
    cases target'
    exact hnew (List.mem_of_mem_head? hhead)

/-- The row that a turn of a transfer asks for comes after every row that it has asked for before, or
the transfer is late. -/
theorem asks (h : Untangled young missed s) (hs : s.Step (.turn p now) s')
    (ha : p ∈ s.world.locks.line a) (hnew : p ∉ s.world.locks.line b)
    (hb : p ∈ s'.world.locks.line b) : Ascends s.world.tables a b ∨ ∃ o, Late missed s p o := by
  cases hs with
  | ignored => exact absurd hb hnew
  | @moves _ _ c w σ answered hc unfinished move =>
    have hsane := (move.acts h.steady.guarded.sane (h.steady.lasting.noReset p c hc)).sane
    rw [System.moved_world] at hb
    split at hb
    · exact absurd hb (RowLocks.not_mem_close hsane.tidy)
    · exact h.move_asks hc move ha hnew hb

end Untangled

end UnitLedger.Concurrent
