import UnitLedger.Proofs.Ledger.Pending

/-!
  UnitLedger.Proofs.Ledger.Linear — calls take effect at one point each.

  A call among others is answered as if it had run alone at one point between its arrival and its
  answer, and all that it does to the rows it does at that point (`Point`). A commit is its own point,
  and so is the turn in which a key is looked up, a name is found taken or the last row is read. A
  transfer that is refused for want of a source or of units has its point where it read the source,
  however long it waited for another lock after that.

  `ledger_linearizable` is this for every calm run and every call but those whose wait for a lock took
  too long; these, and the calls that are not answered yet, have changed nothing.
-/

namespace UnitLedger.Ledger

open Concurrent Memory
open Store (Op)

section Behaviour

variable {σ : Type} (B : Behaviour σ) (s₀ : System σ)

def rowsAfter (es : List Event) : Tables := (s₀.run B es).world.tables

def Still (es : List Event) (p : Party) : Prop :=
  ∀ before e, before ++ [e] <+: es → e.party = p →
    rowsAfter B s₀ (before ++ [e]) = rowsAfter B s₀ before

/-- The event `e` after the events `before` is where the party's call takes effect: it is an event of
the call that is not answered yet, the call alone would be answered `a` on the rows before it and leave
those after it, and no other event of the call changes rows. -/
structure Point (es : List Event) (p : Party) (call : Call) (a : Answer) (before : List Event)
    (e : Event) : Prop where
  within : before ++ [e] <+: es
  own : e.party = p
  unanswered : (s₀.run B before).answer? B p = none
  begun : ((s₀.run B (before ++ [e])).caller p).map (·.call) = some call
  alone : Alone (rowsAfter B s₀ before) call a (rowsAfter B s₀ (before ++ [e]))
  others : ∀ before' e', before' ++ [e'] <+: es → e'.party = p → before' ≠ before →
    rowsAfter B s₀ (before' ++ [e']) = rowsAfter B s₀ before'

end Behaviour

section Points

variable {σ : Type} {B : Behaviour σ} {s₀ : System σ} {es before : List Event} {p : Party} {call : Call}
  {a : Answer} {e e' : Event}

/-- An event at the end of a list of events, or one before that. -/
theorem init_cases (h : before ++ [e] <+: es ++ [e']) :
    (before = es ∧ e = e') ∨ before ++ [e] <+: es := by
  rcases List.prefix_concat_iff.mp h with heq | hinit
  · obtain ⟨hes, hlast⟩ := List.append_inj' heq rfl
    exact Or.inl ⟨hes, List.singleton_inj.mp hlast⟩
  · exact Or.inr hinit

theorem Still.later (h : Still B s₀ es p)
    (hsame : e.party = p → rowsAfter B s₀ (es ++ [e]) = rowsAfter B s₀ es) :
    Still B s₀ (es ++ [e]) p := by
  intro before e' hinit hown
  rcases init_cases hinit with ⟨rfl, rfl⟩ | hinit
  · exact hsame hown
  · exact h before e' hinit hown

theorem Point.later (h : Point B s₀ es p call a before e')
    (hsame : e.party = p → rowsAfter B s₀ (es ++ [e]) = rowsAfter B s₀ es) :
    Point B s₀ (es ++ [e]) p call a before e' := by
  refine ⟨h.within.trans (List.prefix_append es [e]), h.own, h.unanswered, h.begun, h.alone, ?_⟩
  intro before' e'' hinit hown hne
  rcases init_cases hinit with ⟨rfl, rfl⟩ | hinit
  · exact hsame hown
  · exact h.others before' e'' hinit hown hne

/-- The last event is the point of a call whose events changed nothing before. -/
theorem Still.point (h : Still B s₀ es p) (own : e.party = p)
    (unanswered : (s₀.run B es).answer? B p = none)
    (begun : ((s₀.run B (es ++ [e])).caller p).map (·.call) = some call)
    (alone : Alone (rowsAfter B s₀ es) call a (rowsAfter B s₀ (es ++ [e]))) :
    Point B s₀ (es ++ [e]) p call a es e := by
  refine ⟨List.prefix_refl _, own, unanswered, begun, alone, ?_⟩
  intro before' e' hinit hown hne
  rcases init_cases hinit with ⟨rfl, -⟩ | hinit
  · exact absurd rfl hne
  · exact h before' e' hinit hown

end Points

/-! ## Steps -/

/-- What is known of the party's call after these events: what is settled of it, and that it has
changed no rows before its point. -/
structure Tracked (fresh : Nat → Uuid) (es : List Event) (p : Party) : Prop where
  pending : ∀ c, ((System.opened fresh {}).run stages es).caller p = some c →
    Pending (rowsAfter stages (System.opened fresh {}) es)
      (fun a => ∃ before e, Point stages (System.opened fresh {}) es p c.call a before e) c.progress
  still : (∀ c a, ((System.opened fresh {}).run stages es).caller p = some c →
    c.progress = .finished a → a.Fails (.store .lockTimeout)) →
      Still stages (System.opened fresh {}) es p

section Steps

variable {fresh : Nat → Uuid} {es : List Event} {p : Party} {c : Caller Stage} {now : Instant}
  {event : Event} {o : TransferOrder} {x : Option Entry} {a : Answer}

theorem Calm.placed (h : Calm fresh es)
    (hc : ((System.opened fresh {}).run stages es).caller p = some c) (hunfinished : ¬ c.Finished) :
    Placed (fun p => (System.opened fresh {} : System Stage).caller p = none)
      ((System.opened fresh {}).run stages es) p c :=
  have known := h.known
  ⟨known.steady, known.conserved, known.unshared, rfl, hc, known.begun p c hc, hunfinished⟩

/-- A record that another call commits does not have the key of a call that is under way. -/
theorem free_step {s s' : System Stage} (sound : Sound s)
    (hcalm : ∀ p c, s.caller p = some c → c.progress ≠ .resetting) (hs : s.Step event s')
    (hids : DistinctIds s'.world.fresh s'.world.used) (hne : event.party ≠ p)
    (hc : s.caller p = some c) (horder : c.progress.order? = some o)
    (hapart : ∀ q d, q ≠ p → s.caller q = some d → ¬ d.Finished → ∀ k, c.call.key? = some k →
      d.call.key? ≠ some k) (hfree : Free s.world.tables o) : Free s'.world.tables o := by
  cases hs with
  | ignored | arrives => exact hfree
  | @moves q t d w σ answered caller unfinished move =>
    rw [System.moved_tables]
    cases sound.change caller move (by simpa using hids) with
    | same tables => exact tables ▸ hfree
    | reset stage => exact absurd stage (hcalm q d caller)
    | founded _ _ _ tables => exact tables ▸ hfree
    | @settled o' source r e id stage _ _ _ _ tables =>
      intro k hk
      obtain ⟨request, hcall, hvalid⟩ := (sound.origin p c hc).order o horder
      obtain ⟨request', hcall', hvalid'⟩ := (sound.origin q d caller).order o' (by rw [stage]; rfl)
      obtain ⟨_, _, hr⟩ := (sound.origin q d caller).record o' source r stage
      have hkey : c.call.key? = some k := by
        rw [hcall, Call.key?, ← (TransferOrder.accepted hvalid).key, hk]
      have hother : r.key ≠ some k := by
        rw [hr, show (o'.record _ _).key = o'.key from rfl, (TransferOrder.accepted hvalid').key]
        have hdiffers := hapart q d hne caller unfinished k hkey
        rwa [hcall'] at hdiffers
      rw [tables, Tables.findByKey_settled_of_none hother]
      exact hfree k hk

theorem Calm.free_later (h : Calm fresh (es ++ [event])) (hne : event.party ≠ p)
    (hc : ((System.opened fresh {}).run stages es).caller p = some c) (hunfinished : ¬ c.Finished)
    (horder : c.progress.order? = some o)
    (hfree : Free (rowsAfter stages (System.opened fresh {}) es) o) :
    Free (rowsAfter stages (System.opened fresh {}) (es ++ [event])) o := by
  have steady := h.init.known.steady
  have hids := h.ids
  unfold rowsAfter at hfree ⊢
  rw [System.run_append] at hids ⊢
  have hs := System.step_step ((System.opened fresh {}).run stages es) event
  refine free_step steady.sound steady.lasting.noReset hs ?_ hne hc horder ?_ hfree
  · rw [System.step_fresh hs, System.run_fresh]
    exact hids
  · intro q d hqp hd hd' k hk
    exact h.keys es (List.prefix_append es _) p q c.call d.call (Ne.symm hqp)
      (underWay_iff.mpr ⟨c, hc, rfl, hunfinished⟩) (underWay_iff.mpr ⟨d, hd, rfl, hd'⟩) k hk

theorem Tracked.other (h : Calm fresh (es ++ [event])) (tracked : Tracked fresh es p)
    (hne : event.party ≠ p) : Tracked fresh (es ++ [event]) p := by
  have hs := System.step_step ((System.opened fresh {}).run stages es) event
  rw [← System.run_append] at hs
  have hsame := System.step_caller_ne hs (Ne.symm hne)
  refine ⟨?_, ?_⟩
  · intro c hc
    rw [hsame] at hc
    by_cases hfinished : c.Finished
    · obtain ⟨a, ha⟩ := hfinished
      have hpend := tracked.pending c hc
      rw [ha] at hpend ⊢
      exact hpend.imp_right fun ⟨⟨before, e, hpoint⟩, hclean⟩ =>
        ⟨⟨before, e, hpoint.later fun hown => absurd hown hne⟩, hclean⟩
    · refine (tracked.pending c hc).mono h.grows
        (fun o ho hfree => h.free_later hne hc hfinished ho hfree) ?_
      exact fun a ⟨before, e, hpoint⟩ => ⟨before, e, hpoint.later fun hown => absurd hown hne⟩
  · intro hquiet
    rw [hsame] at hquiet
    exact (tracked.still hquiet).later fun hown => absurd hown hne

/-- Where a transfer saw its source, it would have been answered what it is answered now. -/
theorem Calm.point_of_saw (h : Calm fresh (es ++ [event]))
    (hc : ((System.opened fresh {}).run stages es).caller p = some c) (hunfinished : ¬ c.Finished)
    (still : Still stages (System.opened fresh {}) (es ++ [event]) p)
    (hfree : Free (rowsAfter stages (System.opened fresh {}) es) o)
    (saw : Saw (System.opened fresh {}) (es ++ [event]) p o x)
    (judged : Judged (rowsAfter stages (System.opened fresh {}) es) c.call o x a) :
    ∃ before e, Point stages (System.opened fresh {}) (es ++ [event]) p c.call a before e := by
  obtain ⟨before, t, after, hsplit, ⟨d, r, hd, run⟩, hx⟩ := saw
  have hinit : before ++ [.turn p t] <+: es ++ [event] := by
    rw [hsplit]
    exact ⟨after, by simp⟩
  obtain ⟨rest, rfl⟩ : before <+: es := by
    rcases init_cases hinit with ⟨rfl, -⟩ | hearlier
    · exact List.prefix_refl _
    · exact (List.prefix_append _ _).trans hearlier
  have hcalm : Calm fresh (before ++ rest) := h.init
  have hopen : ¬ d.Finished := by
    intro ⟨a', ha'⟩
    rw [ha'] at run
    cases run
  obtain ⟨c', hc', hcall⟩ := System.caller_stays hd rest
  rw [← System.run_run, hc] at hc'
  cases hc'
  obtain ⟨d', hd', hcall'⟩ := System.caller_stays hd [.turn p t]
  rw [← System.run_run] at hd'
  have placed := hcalm.init.placed hd hopen
  obtain ⟨start, hstart⟩ := placed.start rfl (Stage.lockRun_first? run)
  have hnew := placed.newIds (by rw [System.run_fresh]; exact hcalm.init.ids)
  obtain ⟨request, hrequest, hvalid⟩ :=
    (placed.steady.sound.origin p d hd).order o (Stage.lockRun_order? run)
  have hfund : d.call.fund? = some o.fund := by
    rw [hrequest, Call.fund?, (TransferOrder.accepted hvalid).fund]
  have hsame : (rowsAfter stages (System.opened fresh {}) before).hasFund o.fund =
      (rowsAfter stages (System.opened fresh {}) (before ++ rest)).hasFund o.fund := by
    rw [Bool.eq_iff_iff]
    exact ⟨hcalm.grows.hasFund, hcalm.hasFund_before hd hc hunfinished hfund⟩
  have halone := judged _ d.fundId d.entryId start (hcall ▸ hstart) hnew placed.wf
    (hcalm.grows.free hfree) hx hsame
  refine ⟨before, .turn p t, hinit, rfl, (underWay_iff.mpr ⟨d, hd, rfl, hopen⟩).2, ?_, ?_,
    fun before' e' hinit' hown _ => still before' e' hinit' hown⟩
  · rw [hd', Option.map_some, hcall', hcall]
  · rw [still before (.turn p t) hinit rfl]
    exact halone

/-- A call whose input is refused is not refused by the store. -/
theorem start_clean {fundId entryId : Uuid} {call : Call}
    (h : Stage.start fundId entryId now call = .finished a) : ∀ x, ¬ a.Fails (.store x) := by
  intro x hfails
  cases call with
  | createFund name total owner =>
    simp only [Stage.start] at h
    split at h
    · rename_i e he
      cases h
      cases hfails
      unfold Fund.create at he
      split at he <;> cases he
    · split at h
      · rename_i e he
        cases h
        cases hfails
        unfold Entry.create at he
        repeat' split at he
        all_goals cases he
      · cases h
  | transfer request =>
    simp only [Stage.start] at h
    split at h
    · rename_i e he
      cases h
      cases hfails
      unfold TransferRequest.validate at he
      repeat' split at he
      all_goals cases he
    · cases h
  | getOwnership fund owner =>
    simp only [Stage.start] at h
    split at h
    · cases h
      cases hfails
    · cases h
  | _ => cases h

theorem Pending.start {t : Tables} {point : Answer → Prop} (fundId entryId : Uuid) (now : Instant)
    (call : Call) (hreset : call ≠ .reset)
    (hpoint : ∀ a, Stage.start fundId entryId now call = .finished a → point a) :
    Pending t point (Stage.start fundId entryId now call) := by
  have hrefused : ∀ a, Stage.start fundId entryId now call = .finished a →
      Pending t point (.finished a) := fun a ha => Or.inr ⟨hpoint a ha, start_clean ha⟩
  clear hpoint
  revert hrefused
  cases call with
  | createFund name total owner =>
    simp only [Stage.start]
    repeat' split
    all_goals intro hrefused
    all_goals first | exact hrefused _ rfl | trivial
  | transfer request =>
    simp only [Stage.start]
    split <;> intro hrefused
    · exact hrefused _ rfl
    · trivial
  | getOwnership fund owner =>
    simp only [Stage.start]
    split <;> intro hrefused
    · exact hrefused _ rfl
    · trivial
  | reset => exact absurd rfl hreset
  | _ => exact fun _ => trivial

/-- An event that leaves the rows and the caller as they are. -/
theorem Tracked.unchanged (tracked : Tracked fresh es p)
    (hrows : rowsAfter stages (System.opened fresh {}) (es ++ [event]) =
      rowsAfter stages (System.opened fresh {}) es)
    (hcaller : ((System.opened fresh {}).run stages (es ++ [event])).caller p =
      ((System.opened fresh {}).run stages es).caller p) : Tracked fresh (es ++ [event]) p := by
  refine ⟨?_, ?_⟩
  · intro c hc
    rw [hcaller] at hc
    rw [hrows]
    refine (tracked.pending c hc).mono (.refl _) (fun o _ hfree => hfree) ?_
    exact fun a ⟨before, e, hpoint⟩ => ⟨before, e, hpoint.later fun _ => hrows⟩
  · intro hquiet
    rw [hcaller] at hquiet
    exact (tracked.still hquiet).later fun _ => hrows

/-- Arriving is the point of a call whose input is refused. -/
theorem Tracked.arrives {call : Call} (h : Calm fresh (es ++ [.call p call now]))
    (tracked : Tracked fresh es p) (new : ((System.opened fresh {}).run stages es).caller p = none)
    (hrun : (System.opened fresh {}).run stages (es ++ [.call p call now]) =
      ((System.opened fresh {}).run stages es).arrive stages p call now) :
    Tracked fresh (es ++ [.call p call now]) p := by
  have hids := h.ids
  rw [hrun] at hids
  have hsame : rowsAfter stages (System.opened fresh {}) (es ++ [.call p call now]) =
      rowsAfter stages (System.opened fresh {}) es := by
    rw [rowsAfter, hrun]
    rfl
  have still : Still stages (System.opened fresh {}) es p :=
    tracked.still fun c a hc => by rw [new] at hc; cases hc
  refine ⟨?_, fun _ => still.later fun _ => hsame⟩
  intro c hc
  rw [hrun, System.arrive_caller_self] at hc
  cases hc
  refine Pending.start _ _ now call (fun hcall => h.noReset p now (by simp [hcall])) ?_
  intro a hstart
  refine ⟨es, _, still.point rfl ?_ ?_ ?_⟩
  · rw [System.answer?, new]
    rfl
  · rw [hrun, System.arrive_caller_self]
    rfl
  · rw [hsame]
    refine alone_refused hstart (h.init.known.unshared.nextIds 2 ?_)
    rw [System.run_fresh]
    exact hids

theorem Tracked.moves {w : World} {σ : Stage} {answered : Option Op}
    (h : Calm fresh (es ++ [.turn p now])) (tracked : Tracked fresh es p)
    (caller : ((System.opened fresh {}).run stages es).caller p = some c)
    (unfinished : ¬ c.Finished)
    (move : Stage.Move ((System.opened fresh {}).run stages es).world p now c.progress w σ answered)
    (hrun : (System.opened fresh {}).run stages (es ++ [.turn p now]) =
      ((System.opened fresh {}).run stages es).moved p c w σ answered) :
    Tracked fresh (es ++ [.turn p now]) p := by
  have placed := h.init.placed caller unfinished
  have hids : DistinctIds w.fresh w.used := by
    have hids := h.ids
    rw [hrun, System.moved_used] at hids
    rw [move.frame.fresh, System.run_fresh]
    exact hids
  have still : Still stages (System.opened fresh {}) es p := by
    refine tracked.still fun c' a hc' hfinished => absurd ⟨a, ?_⟩ unfinished
    rw [caller] at hc'
    cases hc'
    exact hfinished
  have hunanswered := (underWay_iff.mpr ⟨c, caller, rfl, unfinished⟩).2
  have hmoved : ((System.opened fresh {}).run stages (es ++ [.turn p now])).caller p =
      some (c.moved σ answered) := by
    rw [hrun, System.moved_caller_self]
  have hbegun : (((System.opened fresh {}).run stages (es ++ [.turn p now])).caller p).map
      (·.call) = some c.call := by
    rw [hmoved]
    rfl
  have hrows : rowsAfter stages (System.opened fresh {}) (es ++ [.turn p now]) = w.tables := by
    rw [rowsAfter, hrun, System.moved_tables]
  have hpend := (tracked.pending c caller).move placed rfl (h.init.known.sighted p c caller)
    (h.known.sighted p _ hmoved) (fun o x hsaw => hsaw.later _) move hids
    (fun heq a ⟨before, e, hpoint⟩ => ⟨before, e, hpoint.later fun _ => hrows.trans heq⟩)
    (fun heq a halone =>
      ⟨es, _, still.point rfl hunanswered hbegun (by rw [hrows, heq]; exact halone)⟩)
    (fun heq o x a hfree hsaw hjudged => h.point_of_saw caller unfinished
      (still.later fun _ => hrows.trans heq) hfree hsaw hjudged)
  rcases hpend with ⟨heq, hpend⟩ | ⟨a, rfl, halone, hclean⟩
  · refine ⟨?_, fun _ => still.later fun _ => hrows.trans heq⟩
    intro d hd
    rw [hmoved] at hd
    cases hd
    rw [hrows, heq]
    exact hpend
  · refine ⟨?_, fun hquiet => absurd (hquiet _ a hmoved rfl) (hclean _)⟩
    intro d hd
    rw [hmoved] at hd
    cases hd
    refine Or.inr ⟨⟨es, _, still.point rfl hunanswered hbegun ?_⟩, hclean⟩
    rw [hrows]
    exact halone

theorem Tracked.own (h : Calm fresh (es ++ [event])) (tracked : Tracked fresh es p)
    (hown : event.party = p) : Tracked fresh (es ++ [event]) p := by
  obtain ⟨s', hrun⟩ : ∃ s', (System.opened fresh {}).run stages (es ++ [event]) = s' := ⟨_, rfl⟩
  have hs := System.step_step ((System.opened fresh {}).run stages es) event
  rw [← System.run_append, hrun] at hs
  cases hs with
  | ignored => exact tracked.unchanged (by rw [rowsAfter, hrun, rowsAfter]) (by rw [hrun])
  | @arrives q call now new =>
    obtain rfl : q = p := hown
    exact tracked.arrives h new hrun
  | @moves q now c w σ answered caller unfinished move =>
    obtain rfl : q = p := hown
    exact tracked.moves h caller unfinished move hrun

theorem Calm.tracked (h : Calm fresh es) (p : Party) : Tracked fresh es p := by
  induction es using List.reverseRecOn with
  | nil =>
    refine ⟨?_, ?_⟩
    · intro c hc
      cases hc
    · intro _ before e hinit
      exact absurd (List.prefix_nil.mp hinit)
        (List.append_ne_nil_of_right_ne_nil _ (List.cons_ne_nil _ _))
  | append_singleton es e ih =>
    by_cases hown : e.party = p
    · exact (ih h.init).own h hown
    · exact (ih h.init).other h hown

/-- A transfer that asks for its commit is answered its record. -/
theorem commit_answered {young : Party → Prop} {s : System Stage} {point : Answer → Prop} {w : World}
    {σ σ₀ : Stage} {answered : Option Op} {request : TransferRequest}
    (pend : Pending s.world.tables point σ₀) (placed : Placed young s p c) (hσ : c.progress = σ₀)
    (move : Stage.Move s.world p now σ₀ w σ answered) (hids : DistinctIds w.fresh w.used)
    (hcall : c.call = .transfer request) (hcommit : answered = some .commit) :
    ∃ r, σ = .finished (.transfer (.ok r)) := by
  have hframe := move.frame
  have hfounds : ∀ f e, σ₀.founding? = some (f, e) → False := by
    intro f e hrows
    obtain ⟨name, total, owner, hcreate, -⟩ :=
      (placed.steady.sound.origin p c placed.caller).founding f e (hσ ▸ hrows)
    rw [hcall] at hcreate
    cases hcreate
  cases move with
  | @commit o e r done => exact ⟨r, rfl⟩
  | @commitRefused o e r err failed | @commitBeaten o e r err k failed =>
    have hused := placed.commit_used (j := Journal.move e.id r) (by rw [hσ]; rfl) now
    rw [hframe.fresh, hused] at hids
    rw [(placed.commit_ok hσ pend now hids).1] at failed
    cases failed
  | @commitFund f e | @commitFundRefused f e => exact absurd rfl (hfounds f e)
  | _ => cases hcommit

theorem Calm.committed (h : Calm fresh es) : ∀ p c request,
    ((System.opened fresh {}).run stages es).caller p = some c → c.call = .transfer request →
      Op.commit ∈ c.asked → ∃ r, c.progress = .finished (.transfer (.ok r)) := by
  induction es using List.reverseRecOn with
  | nil =>
    intro p c request hc
    cases hc
  | append_singleton es e ih =>
    intro p d request hd hcall hcommit
    have ih := ih h.init
    have hids := h.ids
    rw [System.run_append] at hd hids
    have hs := System.step_step ((System.opened fresh {}).run stages es) e
    generalize System.step stages _ e = s' at hd hids hs
    cases hs with
    | ignored => exact ih p d request hd hcall hcommit
    | arrives new =>
      rcases System.arrive_caller hd with ⟨-, rfl⟩ | ⟨-, hd⟩
      · cases hcommit
      · exact ih p d request hd hcall hcommit
    | @moves q now c w σ answered caller unfinished move =>
      rcases System.moved_caller hd with ⟨rfl, rfl⟩ | ⟨-, hd⟩
      · rcases List.mem_append.mp hcommit with hold | hnew
        · obtain ⟨r, hr⟩ := ih p c request caller hcall hold
          exact absurd ⟨_, hr⟩ unfinished
        · refine commit_answered ((h.init.tracked p).pending c caller) (h.init.placed caller unfinished)
            rfl move ?_ hcall (Option.mem_toList.mp hnew)
          rw [System.moved_used] at hids
          rw [move.frame.fresh, System.run_fresh]
          exact hids
      · exact ih p d request hd hcall hcommit

end Steps

/-! ## The ledger -/

section Ledger

variable {fresh : Nat → Uuid} {es : List Event} {p : Party} {call : Call}

theorem run_programs (fresh : Nat → Uuid) (es : List Event) :
    (System.opened fresh {}).run programs es =
      ((System.opened fresh {}).run stages es).map Stage.status :=
  ledger_eq_stages fresh es

theorem map_call (s : System Stage) (p : Party) :
    ((s.map Stage.status).caller p).map (·.call) = (s.caller p).map (·.call) := by
  simp only [System.map, Option.map_map]
  rfl

theorem underWay_programs {s : System Stage} :
    UnderWay programs (s.map Stage.status) p call ↔ UnderWay stages s p call := by
  rw [UnderWay, UnderWay, map_call, System.answer?_map]

theorem rowsAfter_status (s : System Stage) (es : List Event) :
    rowsAfter programs (s.map Stage.status) es = rowsAfter stages s es := by
  rw [rowsAfter, System.run_status]
  rfl

theorem rowsAfter_programs (fresh : Nat → Uuid) (es : List Event) :
    rowsAfter programs (System.opened fresh {}) es = rowsAfter stages (System.opened fresh {}) es :=
  rowsAfter_status (System.opened fresh {}) es

theorem calm_of_programs (hids : DistinctIds fresh (ledger fresh es).world.used)
    (hreset : NoReset es) (hkeys : KeysApart programs (System.opened fresh {}) es)
    (hfunds : FundsSettled programs (System.opened fresh {}) es) : Calm fresh es := by
  refine ⟨?_, hreset, ?_, ?_⟩
  · rw [ledger_eq_stages] at hids
    exact hids
  · intro before hinit p q call other hne hp hq
    refine hkeys before hinit p q call other hne ?_ ?_ <;> rw [run_programs, underWay_programs]
    · exact hp
    · exact hq
  · intro before e hinit p call fund hp hnames hfund
    have hknown := hfunds before e hinit p call fund
    rw [run_programs, run_programs, underWay_programs] at hknown
    exact hknown hp hnames hfund

theorem Still.programs {s : System Stage} (h : Still stages s es p) :
    Still programs (s.map Stage.status) es p := by
  intro before e hinit hown
  rw [rowsAfter_status, rowsAfter_status]
  exact h before e hinit hown

theorem Point.programs {a : Answer} {before : List Event} {e : Event}
    (h : Point stages (System.opened fresh {}) es p call a before e) :
    Point programs (System.opened fresh {}) es p call a before e := by
  refine ⟨h.within, h.own, ?_, ?_, ?_, ?_⟩
  · rw [run_programs, System.answer?_map]
    exact h.unanswered
  · rw [run_programs, map_call]
    exact h.begun
  · rw [rowsAfter_programs, rowsAfter_programs]
    exact h.alone
  · intro before' e' hinit hown hne
    rw [rowsAfter_programs, rowsAfter_programs]
    exact h.others before' e' hinit hown hne

end Ledger

/-- After these events every call that was answered, except those whose wait for a lock took too long,
took effect at one point; all other calls have changed nothing. No transfer was refused at its commit,
and the store refused nothing else. -/
structure Linearizable (fresh : Nat → Uuid) (es : List Event) : Prop where
  points : ∀ p call a, ((ledger fresh es).caller p).map (·.call) = some call →
    (ledger fresh es).answer? programs p = some a → ¬ a.Fails (.store .lockTimeout) →
      ∃ before e, Point programs (System.opened fresh {}) es p call a before e
  still : ∀ p, (∀ a, (ledger fresh es).answer? programs p = some a →
    a.Fails (.store .lockTimeout)) → Still programs (System.opened fresh {}) es p
  commits : ∀ p request, ((ledger fresh es).caller p).map (·.call) = some (.transfer request) →
    Op.commit ∈ (ledger fresh es).asked p →
      ∃ r, (ledger fresh es).answer? programs p = some (.transfer (.ok r))
  refusals : ∀ p a err, (ledger fresh es).answer? programs p = some a → a.Fails (.store err) →
    err = .lockTimeout

/-- A run without a reset is linearizable, if calls that are under way together carry different keys and
no call names a fund that comes into being meanwhile. -/
theorem ledger_linearizable {fresh : Nat → Uuid} (es : List Event)
    (hids : DistinctIds fresh (ledger fresh es).world.used) (hreset : NoReset es)
    (hkeys : KeysApart programs (System.opened fresh {}) es)
    (hfunds : FundsSettled programs (System.opened fresh {}) es) : Linearizable fresh es := by
  have hcalm := calm_of_programs hids hreset hkeys hfunds
  have hanswered : ∀ {p a}, (ledger fresh es).answer? programs p = some a →
      ∃ c, ((System.opened fresh {}).run stages es).caller p = some c ∧ c.progress = .finished a ∧
        (a.Fails (.store .lockTimeout) ∨
          ((∃ before e, Point stages (System.opened fresh {}) es p c.call a before e) ∧
            ∀ x, ¬ a.Fails (.store x))) := by
    intro p a hans
    rw [ledger_eq_stages, System.answer?_map] at hans
    obtain ⟨c, hc, hfinished⟩ := System.answer?_eq_some.mp hans
    have hpend := (hcalm.tracked p).pending c hc
    rw [hfinished] at hpend
    exact ⟨c, hc, hfinished, hpend⟩
  refine ⟨?_, ?_, ?_, ?_⟩
  · intro p call a hcall hans hslow
    obtain ⟨c, hc, -, hslow' | ⟨⟨before, e, hpoint⟩, -⟩⟩ := hanswered hans
    · exact absurd hslow' hslow
    · rw [ledger_eq_stages, map_call, hc] at hcall
      cases hcall
      exact ⟨before, e, hpoint.programs⟩
  · intro p hquiet
    refine ((hcalm.tracked p).still fun c a hc hfinished => hquiet a ?_).programs
    rw [ledger_eq_stages, System.answer?_map]
    exact System.answer?_eq_some.mpr ⟨c, hc, hfinished⟩
  · intro p request hcall hcommit
    rw [ledger_eq_stages, map_call] at hcall
    rw [ledger_eq_stages, System.asked_map] at hcommit
    obtain ⟨c, hc, hcall⟩ := Option.map_eq_some_iff.mp hcall
    rw [System.asked, hc] at hcommit
    obtain ⟨r, hr⟩ := hcalm.committed p c request hc hcall hcommit
    refine ⟨r, ?_⟩
    rw [ledger_eq_stages, System.answer?_map]
    exact System.answer?_eq_some.mpr ⟨c, hc, hr⟩
  · intro p a err hans hfails
    obtain ⟨c, hc, -, hslow | ⟨-, hclean⟩⟩ := hanswered hans
    · exact LedgerError.store.inj (hfails.unique hslow)
    · exact absurd hfails (hclean err)

/-! ## Two transfers and a reader -/

/-- Whoever is under way has called. -/
theorem UnderWay.called {fresh : Nat → Uuid} {es : List Event} {p : Party} {call : Call}
    (h : UnderWay programs ((System.opened fresh {}).run programs es) p call) :
    ∃ now, Event.call p call now ∈ es := by
  rw [run_programs, underWay_programs, underWay_iff] at h
  obtain ⟨c, hc, rfl, -⟩ := h
  revert c
  refine System.run_history (P := fun es s => ∀ c, s.caller p = some c →
    ∃ now, Event.call p c.call now ∈ es) (fun c hc => by cases hc) ?_ es
  intro es e s' ih hs d hd
  have hlater : ∀ {call}, (∃ now, Event.call p call now ∈ es) →
      ∃ now, Event.call p call now ∈ es ++ [e] := fun ⟨now, hmem⟩ => ⟨now, List.mem_append_left _ hmem⟩
  cases hs with
  | ignored => exact hlater (ih d hd)
  | @arrives q call now new =>
    rcases System.arrive_caller hd with ⟨rfl, rfl⟩ | ⟨-, hd⟩
    · exact ⟨now, by simp [Caller.arriving]⟩
    · exact hlater (ih d hd)
  | @moves q now c w σ answered caller unfinished move =>
    rcases System.moved_caller hd with ⟨rfl, rfl⟩ | ⟨-, hd⟩
    · exact hlater (ih c caller)
    · exact hlater (ih d hd)

/-- Ada, who has ten units, gives Ben four and Cy nine at the same time, while someone reads what Ben
holds. The second transfer waits for the first one's lock and is refused. -/
def crossing : List Event :=
  [.call 0 (.createFund "Hull" 10 "Ada") ⟨0⟩] ++ List.replicate 4 (.turn 0 ⟨1⟩) ++
  [.call 1 (.transfer ⟨Uuid.ofNat 0, "Ada", "Ben", 4, some (Uuid.ofNat 77)⟩) ⟨2⟩,
    .call 2 (.transfer ⟨Uuid.ofNat 0, "Ada", "Cy", 9, none⟩) ⟨2⟩,
    .call 3 (.getOwnership (Uuid.ofNat 0) "Ben") ⟨2⟩, .turn 1 ⟨3⟩, .turn 2 ⟨3⟩, .turn 1 ⟨3⟩,
    .turn 1 ⟨3⟩, .turn 2 ⟨3⟩, .turn 3 ⟨3⟩] ++
  List.replicate 4 (.turn 1 ⟨4⟩) ++ [.turn 3 ⟨5⟩, .turn 2 ⟨5⟩, .turn 2 ⟨5⟩]

/-- Only the first transfer carries a key, and all but the creation name the fund. -/
theorem crossing_calls {p : Party} {call : Call} {now : Instant} (h : .call p call now ∈ crossing) :
    (call.key? ≠ none → p = 1) ∧
      (call.fund? ≠ none → call.fund? = some (Uuid.ofNat 0) ∧ p ≠ 0) := by
  simp only [crossing, List.mem_append, List.mem_cons, List.mem_replicate, List.not_mem_nil,
    reduceCtorEq, and_false, or_false, Event.call.injEq] at h
  rcases h with ⟨rfl, rfl, rfl⟩ | ⟨rfl, rfl, rfl⟩ | ⟨rfl, rfl, rfl⟩ | ⟨rfl, rfl, rfl⟩ <;> decide

theorem crossing_keysApart : KeysApart programs (System.opened Uuid.ofNat {}) crossing := by
  intro before hinit p q call other hne hp hq k hk hk'
  obtain ⟨now, hcall⟩ := hp.called
  obtain ⟨now', hother⟩ := hq.called
  have hfirst := (crossing_calls (hinit.subset hcall)).1 (by simp [hk])
  have hsecond := (crossing_calls (hinit.subset hother)).1 (by simp [hk'])
  exact hne (hfirst.trans hsecond.symm)

theorem crossing_fundsSettled : FundsSettled programs (System.opened Uuid.ofNat {}) crossing := by
  intro before e hinit p call fund hp hnames _
  obtain ⟨now, hcall⟩ := hp.called
  have hbefore : before <+: crossing := (List.prefix_append _ _).trans hinit
  obtain ⟨hfund, hp0⟩ := (crossing_calls (hbefore.subset hcall)).2 (by simp [hnames])
  obtain rfl : fund = Uuid.ofNat 0 := Option.some.inj (hnames.symm.trans hfund)
  -- Whoever names the fund calls after its creation.
  have hlate : 5 < before.length := by
    by_contra hearly
    have hinit' : before <+: crossing.take 5 := List.prefix_take_iff.mpr ⟨hbefore, by omega⟩
    have hcreator : ∀ e ∈ crossing.take 5, e.party = 0 := by decide
    exact hp0 (hcreator _ (hinit'.subset hcall))
  have hpresent : ∀ n < 25, 5 < n → ((System.opened Uuid.ofNat {}).run programs
      (crossing.take n)).world.tables.hasFund (Uuid.ofNat 0) = true := by
    decide +kernel
  have hlength : before.length ≤ crossing.length := hbefore.length_le
  rw [List.prefix_iff_eq_take.mp hbefore]
  exact hpresent _ (Nat.lt_of_le_of_lt hlength (by decide)) hlate

theorem crossing_linearizable :
    DistinctIds Uuid.ofNat (ledger Uuid.ofNat crossing).world.used ∧ NoReset crossing ∧
    KeysApart programs (System.opened Uuid.ofNat {}) crossing ∧
    FundsSettled programs (System.opened Uuid.ofNat {}) crossing ∧
    (ledger Uuid.ofNat crossing).answer? programs 2 =
      some (.transfer (.error (.insufficientUnits 6 9))) ∧
    Linearizable Uuid.ofNat crossing := by
  have hreset : NoReset crossing := by
    intro p now hmem
    simp [crossing] at hmem
  have hids : DistinctIds Uuid.ofNat (ledger Uuid.ofNat crossing).world.used := by decide +kernel
  exact ⟨hids, hreset, crossing_keysApart, crossing_fundsSettled, by decide +kernel,
    ledger_linearizable crossing hids hreset crossing_keysApart crossing_fundsSettled⟩

end UnitLedger.Ledger
