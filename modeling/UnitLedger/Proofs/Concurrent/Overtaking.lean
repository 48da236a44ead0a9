import UnitLedger.Proofs.Concurrent.Sighted

/-!
  UnitLedger.Proofs.Concurrent.Overtaking — equal transfers do not overtake each other.

  Rows are locked in the order of their owners' names, and an owner without an entry is passed over. A
  transfer may so pass its source over and wait for the row of its target while the source gets its
  entry. Another transfer of the same order that starts locking then finds the source; but it comes to
  the end of the line of the target's row, where the first one stands. So as long as the first one
  waits, no transfer of the same order gets past its locks (`NoOvertaking`).
-/

namespace UnitLedger.Memory.RowLocks

/-- In the line, `p` stands before every place of `q`. -/
def Ahead (p q : Party) (l : List Party) : Prop := ∃ a b, l = a ++ b ∧ p ∈ a ∧ q ∉ a

variable {p q r : Party} {l l' : List Party}

theorem Ahead.not_head (h : Ahead p q l) : l.head? ≠ some q := by
  obtain ⟨a, b, rfl, hp, hq⟩ := h
  cases a with
  | nil => cases hp
  | cons x a =>
    intro hhead
    rw [List.cons_append, List.head?_cons, Option.some.injEq] at hhead
    exact hq (hhead ▸ List.mem_cons_self)

theorem Ahead.append (hp : p ∈ l) (hq : q ∉ l) (l' : List Party) : Ahead p q (l ++ l') :=
  ⟨l, l', rfl, hp, hq⟩

/-- What a third party does does not change who is ahead. -/
theorem Ahead.others (h : Ahead p q l) (hp : p ≠ r) (hq : q ≠ r)
    (hsame : l'.filter (· != r) = l.filter (· != r)) : Ahead p q l' := by
  obtain ⟨a, b, rfl, hpa, hqa⟩ := h
  rw [List.filter_append] at hsame
  obtain ⟨a', b', rfl, ha, -⟩ := List.filter_eq_append_iff.mp hsame
  refine ⟨a', b', rfl, ?_, ?_⟩
  · have hmem : p ∈ a'.filter (· != r) := by
      rw [ha]
      exact List.mem_filter.mpr ⟨hpa, by simpa using hp⟩
    exact (List.mem_filter.mp hmem).1
  · intro hmem
    have hmem' : q ∈ a.filter (· != r) := by
      rw [← ha]
      exact List.mem_filter.mpr ⟨hmem, by simpa using hq⟩
    exact hqa (List.mem_filter.mp hmem').1

end UnitLedger.Memory.RowLocks

namespace UnitLedger.Concurrent

open Memory (Party World Tables RowLocks)
open Memory.RowLocks (Ahead)
open Store (Op)

def Stage.PassedOver (o : TransferOrder) (row : Uuid) : Stage → Prop
  | .lockWaiting o' row' rest locked => o' = o ∧ row' = row ∧ sourceIn o locked = none ∧
      ∃ done owner, World.lockOrder [o.source, o.target] = done ++ owner :: rest ∧ o.source ∈ done
  | _ => False

/-- Another transfer of this order has not got past its locks: it has not found the source, or it
stands behind in the line of the row. -/
def Stage.Behind (o : TransferOrder) (row : Uuid) (p q : Party) (ls : RowLocks) (σ : Stage) : Prop :=
  (∀ e, σ.source? ≠ some (o, e)) ∧
  ∀ row' rest locked, σ = .lockWaiting o row' rest locked → sourceIn o locked ≠ none →
    Ahead p q (ls.line row)

def NoOvertaking (young : Party → Prop) (s : System Stage) : Prop :=
  ∀ p q c d o row, young p → young q → p ≠ q → s.caller p = some c → s.caller q = some d →
    c.progress.PassedOver o row → d.progress.Behind o row p q s.world.locks

section Overtaking

variable {young : Party → Prop} {s s' : System Stage} {p q : Party} {c d : Caller Stage}
  {now : Instant} {w w' : World} {σ : Stage} {answered : Option Op} {event : Event}
  {o : TransferOrder} {row : Uuid} {out : Stage.LockResult}

theorem Stage.PassedOver.locks (h : σ.PassedOver o row) : σ.Locks := by
  cases σ <;> trivial

theorem Stage.Behind.of_not_locks {ls : RowLocks} (h : ¬ σ.Locks) : σ.Behind o row p q ls := by
  refine ⟨?_, ?_⟩
  · intro e he
    refine h ?_
    cases σ <;> trivial
  · rintro row' rest locked rfl
    exact absurd trivial h

/-- Of two owners in order, either the first or the second is waited for. -/
theorem order_cases {a b owner : String} {done rest : List String}
    (horder : [a, b] = done ++ owner :: rest) :
    (done = [] ∧ owner = a ∧ rest = [b]) ∨ (done = [a] ∧ owner = b ∧ rest = []) := by
  rcases List.append_eq_cons_iff.mp horder.symm with ⟨rfl, hcons⟩ | ⟨done', rfl, hrest⟩
  · obtain ⟨rfl, rfl⟩ := List.cons.inj hcons
    exact Or.inl ⟨rfl, rfl, rfl⟩
  · rcases List.append_eq_cons_iff.mp hrest.symm with ⟨rfl, hcons⟩ | ⟨done'', rfl, hnil⟩
    · obtain ⟨rfl, rfl⟩ := List.cons.inj hcons
      exact Or.inr ⟨rfl, rfl, rfl⟩
    · exact absurd hnil.symm (List.append_ne_nil_of_right_ne_nil _ (List.cons_ne_nil _ _))

theorem order_passed {a b owner : String} {done rest : List String} (hdiffer : a ≠ b)
    (horder : World.lockOrder [a, b] = done ++ owner :: rest) (hdone : a ∈ done) :
    World.lockOrder [a, b] = [a, b] ∧ done = [a] ∧ owner = b ∧ rest = [] := by
  rcases World.lockOrder_pair hdiffer with heq | heq <;> rw [heq] at horder ⊢ <;>
    rcases order_cases horder with ⟨rfl, rfl, rfl⟩ | ⟨rfl, rfl, rfl⟩
  · cases hdone
  · exact ⟨rfl, rfl, rfl, rfl⟩
  · cases hdone
  · exact absurd (List.mem_singleton.mp hdone) hdiffer

/-- Who passed its source over waits for the row of its target. -/
theorem Lasting.target (h : Lasting young s) (sound : Sound s) (hp : young p)
    (hc : s.caller p = some c) (hpassed : c.progress.PassedOver o row) :
    o.source ≠ o.target ∧ World.lockOrder [o.source, o.target] = [o.source, o.target] ∧
      ∃ t ∈ s.world.tables.entries, t.id = row ∧ t.fund = o.fund ∧ t.owner = o.target := by
  cases hstage : c.progress with
  | lockWaiting o' row' rest locked =>
    rw [hstage] at hpassed
    obtain ⟨rfl, rfl, -, done, owner, horder, hdone⟩ := hpassed
    obtain ⟨request, -, hvalid⟩ := (sound.origin p c hc).order o' (by rw [hstage]; rfl)
    have hdiffer := (TransferOrder.accepted hvalid).differ
    obtain ⟨done', owner', haw⟩ := h.awaits p c o' row' rest locked hp hc hstage
    obtain ⟨rfl, hcons⟩ := List.append_inj' (horder.symm.trans haw.order) rfl
    obtain rfl := (List.cons.inj hcons).1
    obtain ⟨hpair, rfl, rfl, rfl⟩ := order_passed hdiffer horder hdone
    exact ⟨hdiffer, hpair, haw.row⟩
  | _ =>
    rw [hstage] at hpassed
    exact False.elim hpassed

theorem Guarded.passed (h : Guarded s) (hc : s.caller p = some c)
    (hpassed : c.progress.PassedOver o row) : p ∈ s.world.locks.line row := by
  cases hstage : c.progress with
  | lockWaiting o' row' rest locked =>
    rw [hstage] at hpassed
    obtain ⟨rfl, rfl, -⟩ := hpassed
    exact (h.waits p c o' row' rest locked hc hstage).1
  | _ =>
    rw [hstage] at hpassed
    exact False.elim hpassed

section Later

variable (h : NoOvertaking young s) (lasting : Lasting young s) (guarded : Guarded s) (sound : Sound s)
  (hp : young p) (hq : young q) (hne : p ≠ q) (hc : s.caller p = some c) (hd : s.caller q = some d)
  (hpassed : c.progress.PassedOver o row)

include h lasting guarded sound hp hq hne hc hd hpassed

/-- Another transfer of this order that goes on locking is not in the line of the row, unless it has
passed its source over as well. -/
theorem NoOvertaking.outside {before owners : List String} {first : List Entry}
    (view : LockView s q d o w' out before owners first) :
    q ∉ s.world.locks.line row ∨ (owners = [] ∧ sourceIn o first = none) := by
  obtain ⟨hdiffer, hpair, t, ht, htrow, htfund, htowner⟩ := lasting.target sound hp hc hpassed
  obtain ⟨-, hbehind⟩ := h p q c d o row hp hq hne hc hd hpassed
  by_cases hmem : q ∈ s.world.locks.line row
  · right
    rcases view.stage with ⟨hstage, -⟩ | ⟨row', locked, done, owner, x, hstage, hgo, haw, hx, hxrow,
      hxfund, hxowner, rfl, rfl⟩
    · have hearly := guarded.early q (fun d' hd' => by
        rw [hd] at hd'
        cases hd'
        rw [hstage]
        trivial) row
      exact absurd hmem hearly
    · have hline := (guarded.waits q d o row' owners locked hd hstage).2 t ht (htrow ▸ hmem)
      rcases order_cases (hpair ▸ haw.order) with ⟨rfl, rfl, -⟩ | ⟨rfl, rfl, rfl⟩
      · -- It waits for its source and has no lock yet.
        rcases hline with heq | ⟨y, hy, -⟩
        · have hxt : x = t := sound.tables.eq_of_id hx ht (hxrow.trans heq.symm)
          exact absurd (hxowner.symm.trans (hxt ▸ htowner)) hdiffer
        · cases haw.locked y hy
      · have hlocked : sourceIn o locked = none := by
          cases hsource : sourceIn o locked with
          | none => rfl
          | some e =>
            have hahead := hbehind row' [] locked hstage (by simp [hsource])
            exact absurd (RowLocks.head_of_not_waits hgo hmem) hahead.not_head
        refine ⟨rfl, ?_⟩
        rw [sourceIn_append, hlocked, Option.none_or]
        exact sourceIn_none fun e he heq => by
          obtain rfl := List.mem_singleton.mp he
          exact hdiffer (heq.symm.trans hxowner)
  · exact Or.inl hmem

/-- It does not come to the end of its locks with a source: it would lead the line of the row then. -/
theorem NoOvertaking.not_through {locked : List Entry}
    (run : d.progress.lockRun s.world q = some (o, w', .inl (.ok locked))) :
    sourceIn o locked = none := by
  obtain ⟨hdiffer, hpair, t, ht, htrow, htfund, htowner⟩ := lasting.target sound hp hc hpassed
  obtain ⟨before, owners, first, view⟩ := lasting.lockView sound hq hd run
  have hlocked := view.found sound hd rfl
  rcases h.outside lasting guarded sound hp hq hne hc hd hpassed view with hmem | ⟨rfl, hfirst⟩
  · have htarget : t ∈ locked := by
      have hall : o.target ∈ before ++ owners := by
        rw [← view.order]
        exact (World.mem_lockOrder hdiffer).mpr (Or.inr rfl)
      rw [hlocked]
      rcases List.mem_append.mp hall with hbefore | howners
      · rcases view.stage with ⟨-, rfl, -⟩ | ⟨row', locked', done, owner, x, hstage, -, haw, hx, -,
          hxfund, hxowner, rfl, rfl⟩
        · cases hbefore
        · rcases order_cases (hpair ▸ haw.order) with ⟨rfl, rfl, -⟩ | ⟨rfl, rfl, -⟩
          · exact absurd (List.mem_singleton.mp hbefore).symm hdiffer
          · obtain rfl : x = t := sound.tables.eq_of_holder hx ht (hxfund.trans htfund.symm)
              (hxowner.trans htowner.symm)
            simp
      · refine List.mem_append_right _ (List.mem_filterMap.mpr ⟨o.target, howners, ?_⟩)
        exact sound.tables.activeOf_eq_some.mpr ⟨ht, htfund, htowner⟩
    have hhead := (guarded.lockRun sound hd run t htarget).1
    have hin := guarded.passed hc hpassed
    obtain ⟨m, hm⟩ := (Stage.lockRun_asks run guarded.sane).lines row
    rw [htrow, hm] at hhead
    cases hline : s.world.locks.line row with
    | nil =>
      rw [hline] at hin
      cases hin
    | cons y rest =>
      rw [hline, List.cons_append, List.head?_cons, Option.some.injEq] at hhead
      exact absurd (hline ▸ hhead ▸ List.mem_cons_self) hmem
  · rw [hlocked, World.found, List.filterMap_nil, List.append_nil]
    exact hfirst

/-- If it finds its source and pauses, it has come to the end of the line of the row. -/
theorem NoOvertaking.queues {row' : Uuid} {rest : List String} {locked : List Entry}
    (run : d.progress.lockRun s.world q = some (o, w', .inr (row', rest, locked))) :
    Ahead p q (w'.locks.line row) := by
  obtain ⟨before, owners, first, view⟩ := lasting.lockView sound hq hd run
  obtain ⟨done, owner, howners, -, -⟩ := view.paused sound hd rfl
  rcases h.outside lasting guarded sound hp hq hne hc hd hpassed view with hmem | ⟨rfl, -⟩
  · obtain ⟨m, hm⟩ := (Stage.lockRun_asks run guarded.sane).lines row
    rw [hm]
    exact .append (guarded.passed hc hpassed) hmem _
  · exact absurd howners.symm (List.append_ne_nil_of_right_ne_nil _ (List.cons_ne_nil _ _))

end Later

/-- When a transfer passes its source over, the source has no entry. -/
theorem Lasting.passes (lasting : Lasting young s) (sound : Sound s) (hp : young p)
    (hc : s.caller p = some c) (move : Stage.Move s.world p now c.progress w σ answered)
    (hpassed : σ.PassedOver o row) : s.world.tables.activeOf o.fund o.source = none := by
  cases σ with
  | lockWaiting o' row' rest locked =>
    obtain ⟨rfl, rfl, hnone, done, owner, horder, hdone⟩ := hpassed
    have run := move.paused
    have hdiffer : o'.source ≠ o'.target := by
      obtain ⟨request, -, hvalid⟩ := (sound.origin p c hc).order o' (Stage.lockRun_order? run)
      exact (TransferOrder.accepted hvalid).differ
    obtain ⟨before, owners, first, view⟩ := lasting.lockView sound hp hc run
    obtain ⟨done', owner', howners, hlocked, haw⟩ := view.paused sound hc rfl
    obtain ⟨hsame, -⟩ := List.append_inj' (horder.symm.trans haw.order) rfl
    rcases view.source sound hdiffer _ howners (hsame ▸ hdone) with
      hnow | ⟨row, locked', done'', owner'', -, horder'', hdone'', -⟩
    · rw [← hlocked, hnone] at hnow
      exact hnow.symm
    · obtain ⟨-, -, -, hempty⟩ := order_passed hdiffer horder'' hdone''
      rw [howners] at hempty
      exact absurd hempty (List.append_ne_nil_of_right_ne_nil _ (List.cons_ne_nil _ _))
  | _ => exact False.elim hpassed

/-- Whoever has found its source, the source has an entry. -/
theorem Lasting.behind (lasting : Lasting young s) (sound : Sound s) (hq : young q)
    (hd : s.caller q = some d) (hnone : s.world.tables.activeOf o.fund o.source = none)
    (ls : RowLocks) : d.progress.Behind o row p q ls := by
  have hno : ∀ e, e ∈ d.progress.holding → Rooted s e → e.fund = o.fund → e.owner ≠ o.source := by
    intro e he hroot hfund howner
    obtain ⟨b, hb, hbe⟩ := lasting.present q d hq hd e he
    obtain ⟨hbf, hbo⟩ := hroot.2 b hb hbe
    exact sound.tables.activeOf_eq_none.mp hnone b hb ⟨hbf.trans hfund, hbo.trans howner⟩
  refine ⟨?_, ?_⟩
  · intro e he
    obtain ⟨hfund, howner, -, hroot⟩ := sound.source q d o e hd he
    exact hno e (Stage.mem_holding_of_source? he) hroot hfund howner
  · intro row' rest locked hstage hsome
    refine absurd (sourceIn_none fun e he => ?_) hsome
    obtain ⟨hfund, hroot⟩ := sound.locked q d o row' rest locked hd hstage e he
    exact hno e (by rw [hstage]; exact he) hroot hfund

theorem NoOvertaking.moves {r : Party} {e : Caller Stage} (h : NoOvertaking young s)
    (lasting : Lasting young s) (guarded : Guarded s) (sound : Sound s) (he : s.caller r = some e)
    (move : Stage.Move s.world r now e.progress w σ answered) :
    NoOvertaking young (s.moved r e w σ answered) := by
  intro p q c d o row hp hq hne hc' hd' hpassed
  have hacts := guarded.acts move (lasting.noReset r e he)
  rcases System.moved_caller hc' with ⟨rfl, rfl⟩ | ⟨hpr, hc⟩
  · -- The source has no entry, so nobody has found it.
    have hnone := lasting.passes sound hp he move hpassed
    rcases System.moved_caller hd' with ⟨rfl, -⟩ | ⟨-, hd⟩
    · exact absurd rfl hne
    · exact lasting.behind sound hq hd hnone _
  · rcases System.moved_caller hd' with ⟨rfl, rfl⟩ | ⟨hqr, hd⟩
    · refine ⟨?_, ?_⟩
      · intro x hx
        rcases move.source? hx with hold | ⟨locked, run, hmem, howner, -⟩
        · exact (h p q c e o row hp hq hne hc he hpassed).1 x hold
        · have hnone := h.not_through lasting guarded sound hp hq hne hc he hpassed run
          simp only [sourceIn, List.find?_eq_none, beq_iff_eq] at hnone
          exact hnone x hmem howner
      · intro row' rest locked hstage _
        have hσ : σ = .lockWaiting o row' rest locked := hstage
        subst hσ
        rw [System.moved_world_of_locks (show (Stage.lockWaiting o row' rest locked).Locks from trivial)]
        exact h.queues lasting guarded sound hp hq hne hc he hpassed move.paused
    · obtain ⟨hsource, hahead⟩ := h p q c d o row hp hq hne hc hd hpassed
      exact ⟨hsource, fun row' rest locked hstage hsome =>
        (hahead row' rest locked hstage hsome).others hpr hqr (hacts.others row)⟩

theorem NoOvertaking.step (h : NoOvertaking young s) (lasting : Lasting young s)
    (guarded : Guarded s) (sound : Sound s) (hs : s.Step event s') : NoOvertaking young s' := by
  cases hs with
  | ignored => exact h
  | @arrives r call now new =>
    intro p q c d o row hp hq hne hc hd hpassed
    rcases System.arrive_caller hc with ⟨-, rfl⟩ | ⟨-, hc⟩
    · exact absurd hpassed.locks (Caller.arriving_not_locks s.world call now)
    · rcases System.arrive_caller hd with ⟨-, rfl⟩ | ⟨-, hd⟩
      · exact .of_not_locks (Caller.arriving_not_locks s.world call now)
      · exact h p q c d o row hp hq hne hc hd hpassed
  | moves caller unfinished move => exact h.moves lasting guarded sound caller move

/-! ## Runs without a reset -/

structure Steady (young : Party → Prop) (s : System Stage) : Prop where
  sound : Sound s
  guarded : Guarded s
  lasting : Lasting young s
  fair : NoOvertaking young s

theorem Steady.step (h : Steady young s) (hs : s.Step event s')
    (hids : DistinctIds s'.world.fresh s'.world.used) (hreset : ∀ p now, event ≠ .call p .reset now) :
    Steady young s' :=
  ⟨h.sound.step hs hids, h.guarded.step h.sound hs hids, h.lasting.step h.sound hs hids hreset,
    h.fair.step h.lasting h.guarded h.sound hs⟩

/-- Whoever arrives after a state without a reset under way is young. -/
theorem steady_of_calm (sound : Sound s) (guarded : Guarded s)
    (hcalm : ∀ p c, s.caller p = some c → c.progress ≠ .resetting) :
    Steady (fun p => s.caller p = none) s := by
  refine ⟨sound, guarded, ⟨hcalm, ?_, ?_⟩, ?_⟩
  · intro p c hp hc
    rw [hp] at hc
    cases hc
  · intro p c o row rest locked hp hc
    rw [hp] at hc
    cases hc
  · intro p q c d o row hp _ _ hc
    rw [hp] at hc
    cases hc

theorem Steady.run (h : Steady young s) (es : List Event) (hreset : NoReset es)
    (hids : DistinctIds s.world.fresh (s.run stages es).world.used) :
    Steady young (s.run stages es) := by
  refine System.run_history (P := fun es s' => NoReset es → DistinctIds s.world.fresh s'.world.used →
    Steady young s') (fun _ _ => h) ?_ es hreset hids
  intro es e s' ih hs hreset hids
  have hold : NoReset es := fun p now hmem => hreset p now (List.mem_append_left _ hmem)
  refine (ih hold (hids.mono (System.step_used hs))).step hs ?_ ?_
  · rw [System.step_fresh hs, System.run_fresh]
    exact hids
  · intro p now hcall
    exact hreset p now (by simp [hcall])

end Overtaking

end UnitLedger.Concurrent
