import UnitLedger.Proofs.Concurrent.Ascending
import UnitLedger.Proofs.Ledger.Calm

/-!
  UnitLedger.Proofs.Ledger.Deadlock — transfers that wait for each other.

  Transfers ask for their row locks in one order, by the names of the owners within a fund, so that
  they cannot wait for each other in a cycle. The locking operation keeps to it. A credit does not
  when its target had no entry in the turns of the locking operation, has one now, and comes before
  the source (`LateTarget`): the transfer holds its source's row and asks for one that it should have
  asked for first.

  `locks_ascend`: in every run without a reset all other asking and waiting is in order, and every
  cycle of transfers that wait for each other has a late one in it. `crossed` is a run that ends in
  such a cycle: a transfer from Bob to Alice begins before Alice has an entry, a third transfer gives
  her one, and a transfer from her to Bob meets the first halfway.
-/

namespace UnitLedger.Concurrent.Status

open Store (Op)

def op? {α : Type} : Status α → Option Op
  | .ready op _ | .waiting op _ _ => some op
  | .finished _ => none

end UnitLedger.Concurrent.Status

namespace UnitLedger.Ledger

open Concurrent Memory
open Concurrent.Stage (lockOp creditOp)
open Relation (TransGen)
open Store (Op)

def At (fresh : Nat → Uuid) (es : List Event) (p : Party) (op : Op) : Prop :=
  ∃ c, (ledger fresh es).caller p = some c ∧ c.progress.op? = some op

/-- The party is to credit a target that comes before its source and that had no entry in some turn of
its locking operation. -/
structure LateTarget (fresh : Nat → Uuid) (es : List Event) (p : Party) (o : TransferOrder) : Prop where
  credits : At fresh es p (creditOp o)
  backwards : o.target < o.source
  missed : ∃ before t after, es = before ++ .turn p t :: after ∧ At fresh before p (lockOp o) ∧
    (ledger fresh before).world.tables.activeOf o.fund o.target = none

/-- The row locks of a run are asked for and waited for in the order of the owners' names, but for
late targets. -/
structure InOrder (fresh : Nat → Uuid) (es : List Event) : Prop where
  /-- A row that is asked for comes after every row that the transfer holds or waits for. -/
  asks : ∀ before p t after a b, es = before ++ .turn p t :: after →
    p ∈ (ledger fresh before).world.locks.line a → p ∉ (ledger fresh before).world.locks.line b →
    p ∈ (ledger fresh (before ++ [.turn p t])).world.locks.line b →
      Ascends (ledger fresh before).world.tables a b ∨ ∃ o, LateTarget fresh before p o
  /-- A row that is waited for comes after every row that the transfer holds. -/
  waits : ∀ p, ∀ h ∈ (ledger fresh es).world.locks.held, ∀ l ∈ (ledger fresh es).world.locks.held,
    h.holder = p → p ∈ l.queue →
      Ascends (ledger fresh es).world.tables h.row l.row ∨ ∃ o, LateTarget fresh es p o
  /-- Transfers that wait for each other in a cycle have a late one among them. -/
  cycles : ∀ p, TransGen (ledger fresh es).world.locks.WaitsFor p p →
    ∃ q o, TransGen (ledger fresh es).world.locks.WaitsFor p q ∧
      TransGen (ledger fresh es).world.locks.WaitsFor q p ∧ LateTarget fresh es q o

section Runs

variable {fresh : Nat → Uuid} {es : List Event} {p : Party} {o : TransferOrder}

theorem at_of_stage {c : Caller Stage} {op : Op}
    (hc : ((System.opened fresh {}).run stages es).caller p = some c)
    (hop : c.progress.status.op? = some op) : At fresh es p op := by
  refine ⟨c.map Stage.status, ?_, hop⟩
  simp [ledger_eq_stages, System.map, hc]

theorem ledger_world (fresh : Nat → Uuid) (es : List Event) :
    (ledger fresh es).world = ((System.opened fresh {}).run stages es).world := by
  rw [ledger_eq_stages]
  rfl

theorem lateTarget_of_late
    (h : Late (Missed (System.opened fresh {}) es) ((System.opened fresh {}).run stages es) p o) :
    LateTarget fresh es p o := by
  obtain ⟨⟨c, hc, hcredits⟩, hbackwards, before, t, after, hes, ⟨d, r, hd, run⟩, hnone⟩ := h
  refine ⟨at_of_stage hc ?_, hbackwards, before, t, after, hes, at_of_stage hd ?_, ?_⟩
  · cases hstage : c.progress with
    | crediting o' e | creditWaiting o' e =>
      rw [hstage] at hcredits
      obtain rfl : o' = o := hcredits
      rfl
    | _ =>
      rw [hstage] at hcredits
      exact hcredits.elim
  · generalize d.progress = σ at run
    cases Stage.lockRun_cases run <;> rfl
  · rw [ledger_world]
    exact hnone

theorem untangled_run (es : List Event) (hreset : NoReset es)
    (hids : DistinctIds fresh ((System.opened fresh {}).run stages es).world.used) :
    Untangled (fun p => (System.opened fresh {} : System Stage).caller p = none)
      (Missed (System.opened fresh {}) es) ((System.opened fresh {}).run stages es) := by
  have hlines : Lined ((System.opened fresh {}).run stages es) ∧
      ∀ p c, ((System.opened fresh {}).run stages es).caller p = some c →
        Provided (Leads ((System.opened fresh {}).run stages es).world.tables
          ((System.opened fresh {}).run stages es).world.locks p)
          (Missed (System.opened fresh {}) es p) c.progress := by
    refine System.run_history (P := fun es s => NoReset es → DistinctIds fresh s.world.used →
      Lined s ∧ ∀ p c, s.caller p = some c → Provided (Leads s.world.tables s.world.locks p)
        (Missed (System.opened fresh {}) es p) c.progress)
      (fun _ _ => ⟨lined_opened fresh, fun p c hc => by cases hc⟩) ?_ es hreset hids
    intro es e s' ih hs hreset hids
    have hold : NoReset es := fun p now hmem => hreset p now (List.mem_append_left _ hmem)
    have hids₀ := hids.mono (System.step_used hs)
    have steady := steady_run es hold hids₀
    obtain ⟨lined, provided⟩ := ih hold hids₀
    have hids' : DistinctIds s'.world.fresh s'.world.used := by
      rw [System.step_fresh hs, System.run_fresh]
      exact hids
    exact ⟨lined.step steady.lasting steady.sound steady.guarded (fun _ => rfl) hs hids', fun p =>
      Provided.step (provided p) steady.lasting steady.sound steady.guarded rfl hs hids'⟩
  exact ⟨steady_run es hreset hids, fun _ => rfl, hlines.1, hlines.2⟩

/-- Transfers lock rows in one order, and no transfers wait for each other in a cycle, but for late
targets. -/
theorem locks_ascend (es : List Event) (hreset : NoReset es)
    (hids : DistinctIds fresh (ledger fresh es).world.used) : InOrder fresh es := by
  rw [ledger_world] at hids
  have h := untangled_run es hreset hids
  refine ⟨?_, ?_, ?_⟩
  · rintro before p t after a b rfl ha hnew hb
    have hreset' : NoReset before := fun p now hmem => hreset p now (List.mem_append_left _ hmem)
    have hids' : DistinctIds fresh ((System.opened fresh {}).run stages before).world.used := by
      refine hids.mono ?_
      rw [System.run_run]
      exact System.used_le_run _ _
    rw [ledger_world] at ha hnew hb ⊢
    rw [System.run_append] at hb
    refine ((untangled_run before hreset' hids').asks (System.step_step _ _) ha hnew hb).imp_right ?_
    exact fun ⟨o, hlate⟩ => ⟨o, lateTarget_of_late hlate⟩
  · rintro p held hheld l hl rfl hqueue
    rw [ledger_world] at hheld hl ⊢
    have htidy := h.steady.guarded.sane.tidy
    have hhead := congrArg List.head? (RowLocks.line_of_mem htidy hheld)
    exact (h.waits hhead (RowLocks.queued_of_mem htidy h.lined.single hl hqueue)).imp_right
      fun ⟨o, hlate⟩ => ⟨o, lateTarget_of_late hlate⟩
  · intro p hcycle
    rw [ledger_world] at hcycle ⊢
    obtain ⟨q, o, hto, hback, hlate⟩ := h.cycle hcycle
    exact ⟨q, o, hto, hback, lateTarget_of_late hlate⟩

end Runs

/-! ## A cycle -/

def giveUnits (source target : String) (units : Int) : Call :=
  .transfer ⟨Uuid.ofNat 0, source, target, units, none⟩

/-- Carol has given Bob units. His transfer to Alice locks his row while she has none (2); Carol gives
Alice units (3); Alice's transfer to Bob locks her row and waits for his (4); his comes to its credit
and waits for hers. -/
def crossed : List Event :=
  [.call 0 (.createFund "Hull" 10 "Carol") ⟨0⟩] ++ List.replicate 4 (.turn 0 ⟨1⟩) ++
  [.call 1 (giveUnits "Carol" "Bob" 5) ⟨2⟩] ++ List.replicate 6 (.turn 1 ⟨2⟩) ++
  [.call 2 (giveUnits "Bob" "Alice" 1) ⟨3⟩] ++ List.replicate 2 (.turn 2 ⟨3⟩) ++
  [.call 3 (giveUnits "Carol" "Alice" 5) ⟨4⟩] ++ List.replicate 6 (.turn 3 ⟨4⟩) ++
  [.call 4 (giveUnits "Alice" "Bob" 2) ⟨5⟩] ++ List.replicate 2 (.turn 4 ⟨5⟩) ++
  List.replicate 2 (.turn 2 ⟨6⟩)

theorem noReset_crossed : NoReset crossed := by
  intro p now hmem
  simp [crossed, giveUnits] at hmem

theorem distinctIds_crossed : DistinctIds Uuid.ofNat (ledger Uuid.ofNat crossed).world.used := by
  decide +kernel

/-- The transfers of Bob and of Alice wait for each other. -/
theorem crossed_cycle : TransGen (ledger Uuid.ofNat crossed).world.locks.WaitsFor 2 2 := by
  have hthere : (ledger Uuid.ofNat crossed).world.locks.WaitsFor 2 4 := by decide +kernel
  have hback : (ledger Uuid.ofNat crossed).world.locks.WaitsFor 4 2 := by decide +kernel
  exact .tail (.single hthere) hback

/-- One of them came back to a target that it had not found. -/
theorem crossed_late : ∃ q o, TransGen (ledger Uuid.ofNat crossed).world.locks.WaitsFor 2 q ∧
    TransGen (ledger Uuid.ofNat crossed).world.locks.WaitsFor q 2 ∧
    LateTarget Uuid.ofNat crossed q o :=
  (locks_ascend crossed noReset_crossed distinctIds_crossed).cycles 2 crossed_cycle

/-- Transfers can wait for each other in a cycle. -/
theorem cycle_happens : ¬ ∀ fresh es, NoReset es → DistinctIds fresh (ledger fresh es).world.used →
    ∀ p, ¬ TransGen (ledger fresh es).world.locks.WaitsFor p p := fun h =>
  h _ _ noReset_crossed distinctIds_crossed 2 crossed_cycle

end UnitLedger.Ledger
