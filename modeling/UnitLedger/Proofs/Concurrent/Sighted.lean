import UnitLedger.Proofs.Concurrent.Lasting

/-!
  UnitLedger.Proofs.Concurrent.Sighted — when a transfer looks at its source.

  A transfer judges its source by the entry that it reads in some turn of its locking operation, and it
  may wait for another row for long after that. `Saw` is the moment: a turn of the party, inside that
  operation, in which the committed entry of the source was this one, or there was none. `Sighted`
  says of each stage what the transfer saw before, and `Sighted.step` that it keeps being so while no
  reset disturbs the run.
-/

namespace UnitLedger.Concurrent

open Memory (Party World Tables)
open Store (Op)

/-- In a turn of the party's locking operation the committed entry of the source was this. -/
def Saw (s₀ : System Stage) (es : List Event) (p : Party) (o : TransferOrder) (x : Option Entry) :
    Prop :=
  ∃ before t after, es = before ++ .turn p t :: after ∧
    (∃ c r, (s₀.run stages before).caller p = some c ∧
      c.progress.lockRun (s₀.run stages before).world p = some (o, r)) ∧
    (s₀.run stages before).world.tables.activeOf o.fund o.source = x

def sourceIn (o : TransferOrder) (locked : List Entry) : Option Entry :=
  locked.find? fun e => e.owner == o.source

def Sighted (saw : TransferOrder → Option Entry → Prop) : Stage → Prop
  | .lockWaiting o _ rest locked => ∀ done owner,
      World.lockOrder [o.source, o.target] = done ++ owner :: rest → o.source ∈ done →
        saw o (sourceIn o locked)
  | .checking o => saw o none
  | .debiting o e | .crediting o e | .creditWaiting o e | .appending o e | .committing o e _ =>
      saw o (some e)
  | .withdrawing o (.insufficientUnits present needed) => ∃ e, saw o (some e) ∧ e.units < o.units ∧
      present = e.units ∧ needed = o.units
  | _ => True

section Sighted

variable {s₀ s s' : System Stage} {es : List Event} {p : Party} {c : Caller Stage} {now : Instant}
  {w w' : World} {σ σ' : Stage} {answered : Option Op} {event : Event} {o : TransferOrder}
  {x : Option Entry} {young : Party → Prop} {out : Stage.LockResult}

theorem Saw.later (h : Saw s₀ es p o x) (event : Event) : Saw s₀ (es ++ [event]) p o x := by
  obtain ⟨before, t, after, rfl, hcaller, hx⟩ := h
  exact ⟨before, t, after ++ [event], by simp, hcaller, hx⟩

theorem Sighted.mono {saw saw' : TransferOrder → Option Entry → Prop} (h : Sighted saw σ)
    (hsaw : ∀ o x, saw o x → saw' o x) : Sighted saw' σ := by
  unfold Sighted at h ⊢
  split
  · exact fun done owner horder hdone => hsaw _ _ (h done owner horder hdone)
  · exact hsaw _ _ h
  · exact hsaw _ _ h
  · exact hsaw _ _ h
  · exact hsaw _ _ h
  · exact hsaw _ _ h
  · exact hsaw _ _ h
  · obtain ⟨e, he, hand⟩ := h
    exact ⟨e, hsaw _ _ he, hand⟩
  · trivial

theorem sourceIn_append (o : TransferOrder) (a b : List Entry) :
    sourceIn o (a ++ b) = (sourceIn o a).or (sourceIn o b) := by
  simp [sourceIn, List.find?_append]

theorem sourceIn_none {locked : List Entry} (h : ∀ e ∈ locked, e.owner ≠ o.source) :
    sourceIn o locked = none := by
  simpa [sourceIn] using h

/-- What a turn of the locking operation finds of the source, once it is done with it: what was found
of it before, or its present entry. -/
theorem LockView.source {before owners : List String} {first : List Entry}
    (view : LockView s p c o w' out before owners first) (sound : Sound s)
    (hdiffer : o.source ≠ o.target) (rest : List String) {done : List String}
    (howners : owners = done ++ rest) (hsource : o.source ∈ before ++ done) :
    sourceIn o (first ++ World.found s.world.tables o.fund done) =
        s.world.tables.activeOf o.fund o.source ∨
      ∃ row locked done' owner, c.progress = .lockWaiting o row owners locked ∧
        World.lockOrder [o.source, o.target] = done' ++ owner :: owners ∧ o.source ∈ done' ∧
        sourceIn o (first ++ World.found s.world.tables o.fund done) = sourceIn o locked := by
  have hnodup := World.lockOrder_nodup hdiffer
  rw [view.order, howners, ← List.append_assoc, List.nodup_append] at hnodup
  have hapart := List.nodup_append.mp hnodup.1
  by_cases hdone : o.source ∈ done
  · -- The source is among the owners of this turn.
    have hfirst : sourceIn o first = none := sourceIn_none fun e he heq =>
      hapart.2.2 e.owner (view.known e he).1 o.source hdone heq
    left
    rw [sourceIn_append, hfirst, Option.none_or, sourceIn, World.find_found, if_pos hdone]
  · have hfound : sourceIn o (World.found s.world.tables o.fund done) = none := by
      rw [sourceIn, World.find_found, if_neg hdone]
    have hbefore : o.source ∈ before := (List.mem_append.mp hsource).resolve_right hdone
    rw [sourceIn_append, hfound, Option.or_none]
    rcases view.stage with ⟨-, rfl, -⟩ | ⟨row, locked, done', owner, d, hstage, -, haw, hd, hid, hfund,
      howner, rfl, rfl⟩
    · cases hbefore
    · rw [sourceIn_append]
      by_cases hwaited : owner = o.source
      · -- The row of the source is the one that was waited for.
        have hlocked : sourceIn o locked = none := by
          refine sourceIn_none fun e he heq => ?_
          have := List.nodup_append.mp hapart.1
          exact this.2.2 e.owner (haw.locked e he) owner (by simp) (heq.trans hwaited.symm)
        left
        rw [hlocked, Option.none_or, sound.tables.activeOf_eq_some.mpr ⟨hd, hfund,
          howner.trans hwaited⟩]
        simp [sourceIn, howner, hwaited]
      · right
        have hd : sourceIn o [d] = none := sourceIn_none fun e he heq => by
          obtain rfl := List.mem_singleton.mp he
          exact hwaited (howner.symm.trans heq)
        refine ⟨row, locked, done', owner, hstage, haw.order, ?_, by rw [hd, Option.or_none]⟩
        exact (List.mem_append.mp hbefore).resolve_right fun hmem =>
          hwaited (List.mem_singleton.mp hmem).symm

/-- What a turn of the locking operation has seen of the source. -/
theorem Lasting.sees (h : Lasting young (s₀.run stages es)) (sound : Sound (s₀.run stages es))
    (hp : young p) (hc : (s₀.run stages es).caller p = some c)
    (sighted : Sighted (Saw s₀ es p) c.progress)
    (run : c.progress.lockRun (s₀.run stages es).world p = some (o, w', out)) (now : Instant) :
    (∀ locked, out = .inl (.ok locked) → Saw s₀ (es ++ [.turn p now]) p o (sourceIn o locked)) ∧
    (∀ row rest locked, out = .inr (row, rest, locked) → ∀ done owner,
      World.lockOrder [o.source, o.target] = done ++ owner :: rest → o.source ∈ done →
        Saw s₀ (es ++ [.turn p now]) p o (sourceIn o locked)) := by
  obtain ⟨before, owners, first, view⟩ := h.lockView sound hp hc run
  have hdiffer : o.source ≠ o.target := by
    obtain ⟨request, -, hvalid⟩ := (sound.origin p c hc).order o (Stage.lockRun_order? run)
    exact (TransferOrder.accepted hvalid).differ
  have hsees : ∀ done rest, owners = done ++ rest → o.source ∈ before ++ done →
      Saw s₀ (es ++ [.turn p now]) p o
        (sourceIn o (first ++ World.found (s₀.run stages es).world.tables o.fund done)) := by
    intro done rest howners hsource
    rcases view.source sound hdiffer rest howners hsource with
      hnow | ⟨row, locked, done', owner, hstage, horder, hdone', heq⟩
    · exact ⟨es, now, [], by simp, ⟨c, _, hc, run⟩, hnow.symm⟩
    · rw [heq]
      rw [hstage] at sighted
      exact (sighted done' owner horder hdone').later _
  constructor
  · intro locked hout
    rw [view.found sound hc hout]
    refine hsees owners [] (by simp) ?_
    rw [← view.order]
    exact (World.mem_lockOrder hdiffer).mpr (Or.inl rfl)
  · intro row rest locked hout done owner horder hdone
    obtain ⟨done', owner', howners, hlocked, haw⟩ := view.paused sound hc hout
    rw [hlocked]
    refine hsees done' (owner' :: rest) howners ?_
    obtain ⟨hsame, -⟩ := List.append_inj' (horder.symm.trans haw.order) rfl
    exact hsame ▸ hdone

/-- A move keeps what was seen, and adds what it sees. -/
theorem Sighted.move (sighted : Sighted (Saw s₀ es p) c.progress)
    (lasting : Lasting young (s₀.run stages es)) (sound : Sound (s₀.run stages es)) (hp : young p)
    (hc : (s₀.run stages es).caller p = some c)
    (move : Stage.Move (s₀.run stages es).world p now c.progress w σ answered) :
    Sighted (Saw s₀ (es ++ [.turn p now]) p) σ := by
  have hlater := sighted.mono fun o x h => h.later (.turn p now)
  have hsees := fun {o : TransferOrder} {w' : World} {out : Stage.LockResult}
    (run : c.progress.lockRun (s₀.run stages es).world p = some (o, w', out)) =>
    lasting.sees sound hp hc sighted run now
  generalize c.progress = σ₀ at move hlater hsees
  cases move with
  | lockNone run source =>
    have := (hsees run).1 _ rfl
    rwa [sourceIn, source] at this
  | @lockShort _ _ _ _ e run source short =>
    have := (hsees run).1 _ rfl
    rw [sourceIn, source] at this
    exact ⟨e, this, short, rfl, rfl⟩
  | lockEnough run source enough =>
    have := (hsees run).1 _ rfl
    rwa [sourceIn, source] at this
  | lockPause run => exact (hsees run).2 _ _ _ rfl
  | check =>
    split <;> trivial
  | debit | creditNew | creditLocked | creditPause | creditGo | append => exact hlater
  | idle => exact hlater
  | @noFund fund reading found => cases reading <;> trivial
  | _ => trivial

theorem Sighted.start {saw : TransferOrder → Option Entry → Prop} (fundId entryId : Uuid)
    (now : Instant) (call : Call) : Sighted saw (Stage.start fundId entryId now call) := by
  cases call with
  | transfer request =>
    simp only [Stage.start]
    split <;> trivial
  | createFund name total owner =>
    simp only [Stage.start]
    repeat' split
    all_goals trivial
  | getOwnership fund owner =>
    simp only [Stage.start]
    split <;> trivial
  | _ => trivial

/-- What a party has seen, after one more event. -/
theorem Sighted.step
    (sighted : ∀ c, (s₀.run stages es).caller p = some c → Sighted (Saw s₀ es p) c.progress)
    (lasting : Lasting young (s₀.run stages es)) (sound : Sound (s₀.run stages es)) (hp : young p)
    (hs : (s₀.run stages es).Step event s') :
    ∀ c, s'.caller p = some c → Sighted (Saw s₀ (es ++ [event]) p) c.progress := by
  intro d hd
  cases hs with
  | ignored => exact (sighted d hd).mono fun o x h => h.later event
  | arrives new =>
    rcases System.arrive_caller hd with ⟨-, rfl⟩ | ⟨-, hd⟩
    · exact .start _ _ _ _
    · exact (sighted d hd).mono fun o x h => h.later _
  | moves caller unfinished move =>
    rcases System.moved_caller hd with ⟨rfl, rfl⟩ | ⟨-, hd⟩
    · exact (sighted _ caller).move lasting sound hp caller move
    · exact (sighted d hd).mono fun o x h => h.later _

end Sighted

end UnitLedger.Concurrent
