import UnitLedger.Proofs.Concurrent.Overtaking
import UnitLedger.Proofs.Concurrent.Unshared
import UnitLedger.Proofs.Ledger.Conservation

/-!
  UnitLedger.Proofs.Ledger.Calm — runs in which calls do not get in each other's way.

  In a calm run nobody resets the store, calls that are under way at the same time carry different
  idempotency keys, and no call names a fund that comes into being while the call is under way. Rows
  may be locked and waited for in any order all the same. `Calm.known` collects what is known of every
  state of such a run; funds and records only grow in it (`Calm.grows`).
-/

namespace UnitLedger.Ledger

open Concurrent Memory
open Store (Op)

section Behaviour

variable {σ : Type} (B : Behaviour σ)

def UnderWay (s : System σ) (p : Party) (call : Call) : Prop :=
  (s.caller p).map (·.call) = some call ∧ s.answer? B p = none

/-- Calls that are under way at the same time carry different keys. -/
def KeysApart (s₀ : System σ) (es : List Event) : Prop :=
  ∀ before, before <+: es → ∀ p q call other, p ≠ q → UnderWay B (s₀.run B before) p call →
    UnderWay B (s₀.run B before) q other → ∀ k, call.key? = some k → other.key? ≠ some k

/-- A fund that a call names does not come into being while the call is under way. -/
def FundsSettled (s₀ : System σ) (es : List Event) : Prop :=
  ∀ before e, before ++ [e] <+: es → ∀ p call fund, UnderWay B (s₀.run B before) p call →
    call.fund? = some fund → (s₀.run B (before ++ [e])).world.tables.hasFund fund = true →
      (s₀.run B before).world.tables.hasFund fund = true

end Behaviour

structure Calm (fresh : Nat → Uuid) (es : List Event) : Prop where
  ids : DistinctIds fresh ((System.opened fresh {}).run stages es).world.used
  noReset : NoReset es
  keys : KeysApart stages (System.opened fresh {}) es
  funds : FundsSettled stages (System.opened fresh {}) es

structure Known (fresh : Nat → Uuid) (es : List Event) : Prop where
  steady : Steady (fun p => (System.opened fresh {} : System Stage).caller p = none)
    ((System.opened fresh {}).run stages es)
  conserved : Conserved ((System.opened fresh {}).run stages es)
  unshared : Unshared ((System.opened fresh {}).run stages es)
  begun : ∀ p c, ((System.opened fresh {}).run stages es).caller p = some c → c.Begun
  sighted : ∀ p c, ((System.opened fresh {}).run stages es).caller p = some c →
    Sighted (Saw (System.opened fresh {}) es p) c.progress

section Runs

variable {fresh : Nat → Uuid} {es rest : List Event} {s : System Stage} {p q : Party} {call : Call}
  {c : Caller Stage}

theorem steady_run (es : List Event) (hreset : NoReset es)
    (hids : DistinctIds fresh ((System.opened fresh {}).run stages es).world.used) :
    Steady (fun p => (System.opened fresh {} : System Stage).caller p = none)
      ((System.opened fresh {}).run stages es) := by
  have hstart : DistinctIds fresh ((System.opened fresh {}).run stages []).world.used :=
    hids.mono (Nat.zero_le _)
  exact (steady_of_calm (sound_opened fresh) (guarded_run [] hstart)
    fun p c hc => by cases hc).run es hreset hids

theorem Calm.known (h : Calm fresh es) : Known fresh es := by
  have hboth : Unshared ((System.opened fresh {}).run stages es) ∧
      ∀ p c, ((System.opened fresh {}).run stages es).caller p = some c →
        Sighted (Saw (System.opened fresh {}) es p) c.progress := by
    refine System.run_history (P := fun es s => NoReset es → DistinctIds fresh s.world.used →
      Unshared s ∧ ∀ p c, s.caller p = some c → Sighted (Saw (System.opened fresh {}) es p) c.progress)
      (fun _ _ => ⟨unshared_opened fresh, fun p c hc => by cases hc⟩) ?_ es h.noReset h.ids
    intro es e s' ih hs hreset hids
    have hold : NoReset es := fun p now hmem => hreset p now (List.mem_append_left _ hmem)
    have hids' := hids.mono (System.step_used hs)
    have steady := steady_run es hold hids'
    obtain ⟨unshared, sighted⟩ := ih hold hids'
    refine ⟨unshared.step steady.sound hs ?_, fun p =>
      Sighted.step (sighted p) steady.lasting steady.sound rfl hs⟩
    rw [System.step_fresh hs, System.run_fresh]
    exact hids
  exact ⟨steady_run es h.noReset h.ids, (conserved_run es h.ids).2, hboth.1, begun_run fresh {} es,
    hboth.2⟩

theorem Calm.init (h : Calm fresh (es ++ rest)) : Calm fresh es := by
  refine ⟨System.distinct_part h.ids, fun p now hmem => h.noReset p now (List.mem_append_left _ hmem),
    ?_, ?_⟩
  · exact fun before hbefore => h.keys before (hbefore.trans (List.prefix_append es rest))
  · exact fun before e hbefore => h.funds before e (hbefore.trans (List.prefix_append es rest))

theorem underWay_iff : UnderWay stages s p call ↔
    ∃ c, s.caller p = some c ∧ c.call = call ∧ ¬ c.Finished := by
  constructor
  · intro ⟨hcall, hans⟩
    obtain ⟨c, hc, rfl⟩ := Option.map_eq_some_iff.mp hcall
    refine ⟨c, hc, rfl, fun ⟨a, ha⟩ => ?_⟩
    rw [System.answer?_eq_some.mpr ⟨c, hc, ha⟩] at hans
    cases hans
  · intro ⟨c, hc, hcall, hunfinished⟩
    refine ⟨by rw [hc, Option.map_some, hcall], ?_⟩
    by_contra hsome
    obtain ⟨a, ha⟩ := Option.ne_none_iff_exists'.mp hsome
    obtain ⟨d, hd, hstage⟩ := System.answer?_eq_some.mp ha
    rw [hc] at hd
    cases hd
    exact hunfinished ⟨a, hstage⟩

/-! ## What grows -/

structure Grows (t t' : Tables) : Prop where
  funds : t.funds <+: t'.funds
  transfers : t.transfers <+: t'.transfers

theorem Grows.refl (t : Tables) : Grows t t := ⟨List.prefix_refl _, List.prefix_refl _⟩

theorem Grows.trans {t t' t'' : Tables} (h : Grows t t') (h' : Grows t' t'') : Grows t t'' :=
  ⟨h.funds.trans h'.funds, h.transfers.trans h'.transfers⟩

theorem Grows.findFund {t t' : Tables} (h : Grows t t') {fund : Uuid} {f : Fund}
    (hf : t.findFund fund = some f) : t'.findFund fund = some f := by
  obtain ⟨more, hmore⟩ := h.funds
  unfold Tables.findFund at hf ⊢
  rw [← hmore, List.find?_append, hf]
  rfl

theorem Grows.hasFund {t t' : Tables} (h : Grows t t') {fund : Uuid}
    (hf : t.hasFund fund = true) : t'.hasFund fund = true := by
  rw [Tables.hasFund_iff] at hf ⊢
  obtain ⟨f, hmem, hid⟩ := hf
  exact ⟨f, h.funds.subset hmem, hid⟩

def Free (t : Tables) (o : TransferOrder) : Prop := ∀ k, o.key = some k → t.findByKey k = none

theorem Grows.free {t t' : Tables} (h : Grows t t') {o : TransferOrder} (hfree : Free t' o) :
    Free t o := by
  intro k hk
  obtain ⟨more, hmore⟩ := h.transfers
  have hnone := hfree k hk
  unfold Tables.findByKey at hnone ⊢
  rw [← hmore, List.find?_append, Option.or_eq_none_iff] at hnone
  exact hnone.1

theorem grows_step {s' : System Stage} {e : Event} (sound : Sound s)
    (hcalm : ∀ p c, s.caller p = some c → c.progress ≠ .resetting) (hs : s.Step e s')
    (hids : DistinctIds s'.world.fresh s'.world.used) : Grows s.world.tables s'.world.tables := by
  cases hs with
  | ignored | arrives => exact .refl _
  | @moves p now c w σ answered caller unfinished move =>
    rw [System.moved_tables]
    cases sound.change caller move (by simpa using hids) with
    | same tables => exact tables ▸ .refl _
    | reset stage => exact absurd stage (hcalm p c caller)
    | founded _ _ _ tables => exact tables ▸ ⟨List.prefix_append _ _, List.prefix_refl _⟩
    | @settled o source r e id _ _ _ _ _ tables =>
      rw [tables]
      exact ⟨by simp, by simp⟩

theorem grows_run {young : Party → Prop} (h : Steady young s) (es : List Event) (hreset : NoReset es)
    (hids : DistinctIds s.world.fresh (s.run stages es).world.used) :
    Grows s.world.tables (s.run stages es).world.tables := by
  induction es generalizing s with
  | nil => exact .refl _
  | cons e es ih =>
    rw [System.run_cons] at hids ⊢
    have hs := System.step_step s e
    have hids' : DistinctIds (s.step stages e).world.fresh (s.step stages e).world.used := by
      rw [System.step_fresh hs]
      exact hids.mono (System.used_le_run _ es)
    have hnext := h.step hs hids' fun p now heq => hreset p now (by simp [heq])
    refine (grows_step h.sound h.lasting.noReset hs hids').trans (ih hnext ?_ ?_)
    · exact fun p now hmem => hreset p now (List.mem_cons_of_mem _ hmem)
    · rw [System.step_fresh hs]
      exact hids

theorem Calm.grows (h : Calm fresh (es ++ rest)) :
    Grows ((System.opened fresh {}).run stages es).world.tables
      ((System.opened fresh {}).run stages (es ++ rest)).world.tables := by
  have hids := h.ids
  rw [System.run_run] at hids ⊢
  refine grows_run h.init.known.steady rest ?_ ?_
  · exact fun p now hmem => h.noReset p now (List.mem_append_right _ hmem)
  · rw [System.run_fresh]
    exact hids

/-- Who is under way at the end was under way ever since the arrival. -/
theorem unfinished_before (hc : s.caller p = some c) {d : Caller Stage}
    (hd : (s.run stages rest).caller p = some d) (hunfinished : ¬ d.Finished) : ¬ c.Finished := by
  intro hfinished
  have hstays := System.finished_run hc hfinished rest
  rw [hd] at hstays
  cases hstays
  exact hunfinished hfinished

/-- A fund that the call names was there from its arrival on, or is not there. -/
theorem Calm.hasFund_before (h : Calm fresh (es ++ rest)) {d : Caller Stage} {fund : Uuid}
    (hc : ((System.opened fresh {}).run stages es).caller p = some c)
    (hd : ((System.opened fresh {}).run stages (es ++ rest)).caller p = some d)
    (hunfinished : ¬ d.Finished) (hnames : c.call.fund? = some fund)
    (hfund : ((System.opened fresh {}).run stages (es ++ rest)).world.tables.hasFund fund = true) :
    ((System.opened fresh {}).run stages es).world.tables.hasFund fund = true := by
  induction rest using List.reverseRecOn generalizing d with
  | nil =>
    rw [List.append_nil] at hfund
    exact hfund
  | append_singleton rest e ih =>
    obtain ⟨d', hd', hcall⟩ := System.caller_stays hc rest
    rw [← System.run_run] at hd'
    rw [← List.append_assoc] at h hd hfund
    have hopen : ¬ d'.Finished := by
      rw [System.run_run] at hd
      exact unfinished_before hd' hd hunfinished
    refine ih h.init hd' hopen ?_
    exact h.funds (es ++ rest) e (List.prefix_refl _) p c.call fund
      (underWay_iff.mpr ⟨d', hd', hcall, hopen⟩) hnames hfund

end Runs

end UnitLedger.Ledger
