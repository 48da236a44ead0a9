import UnitLedger.Proofs.Concurrent.Alone
import UnitLedger.Proofs.Concurrent.Sound

/-!
  UnitLedger.Proofs.Concurrent.Unshared — no id is given out twice.

  A call keeps the two ids that it took when it arrived, and a transfer about to commit also that of
  its record. Whatever rows these ids are for, they are no other call's, and while the call is under
  way no row has one of them.
-/

namespace UnitLedger.Memory.Tables

variable {t : Tables} {id : Uuid}

theorem mem_ids : id ∈ t.ids ↔
    (∃ f ∈ t.funds, f.id = id) ∨ (∃ e ∈ t.entries, e.id = id) ∨ ∃ r ∈ t.transfers, r.id = id := by
  simp [ids]

theorem mem_ids_founded {f : Fund} {e : Entry} (hnew : e.id ∉ t.entryIds)
    (h : id ∈ (t.founded f e).ids) : id ∈ t.ids ∨ id = f.id ∨ id = e.id := by
  have hentries := founded_entries (f := f) hnew
  rw [mem_ids, hentries] at h
  rcases h with ⟨g, hg, rfl⟩ | ⟨d, hd, rfl⟩ | hr
  · rcases List.mem_append.mp hg with hg | hg
    · exact Or.inl (mem_ids.mpr (Or.inl ⟨g, hg, rfl⟩))
    · exact Or.inr (Or.inl (by rw [List.mem_singleton.mp hg]))
  · rcases List.mem_append.mp hd with hd | hd
    · exact Or.inl (mem_ids.mpr (Or.inr (Or.inl ⟨d, hd, rfl⟩)))
    · exact Or.inr (Or.inr (by rw [List.mem_singleton.mp hd]))
  · exact Or.inl (mem_ids.mpr (Or.inr (Or.inr hr)))

theorem mem_ids_settled {freshId : Uuid} {now : Instant} {e : Entry} {r : Transfer}
    (wf : t.WellFormed) (admits : t.Admits e r) (hnew : freshId ∉ t.entryIds)
    (h : id ∈ (t.settled freshId now e r).ids) : id ∈ t.ids ∨ id = r.id ∨ id = freshId := by
  rw [mem_ids, settled_funds, settled_transfers, settled_entries wf admits hnew] at h
  rcases h with hf | ⟨d, hd, rfl⟩ | ⟨r', hr', rfl⟩
  · exact Or.inl (mem_ids.mpr (Or.inl hf))
  · rcases List.mem_append.mp hd with hd | hd
    · obtain ⟨b, hb, rfl⟩ := List.mem_map.mp hd
      rw [adjusted_id]
      exact Or.inl (mem_ids.mpr (Or.inr (Or.inl ⟨b, hb, rfl⟩)))
    · split at hd
      · cases hd
      · obtain rfl := List.mem_singleton.mp hd
        exact Or.inr (Or.inr rfl)
  · rcases List.mem_append.mp hr' with hr' | hr'
    · exact Or.inl (mem_ids.mpr (Or.inr (Or.inr ⟨r', hr', rfl⟩)))
    · exact Or.inr (Or.inl (by rw [List.mem_singleton.mp hr']))

end UnitLedger.Memory.Tables

namespace UnitLedger.Concurrent

open Memory (Party World Tables)
open Store (Op)

/-- The id of the record that the transfer is about to commit. -/
def Stage.recordId? : Stage → Option Uuid
  | .committing _ _ r => some r.id
  | _ => none

def Caller.ids (c : Caller Stage) : List Uuid :=
  c.fundId :: c.entryId :: c.progress.recordId?.toList

structure Unshared (s : System Stage) : Prop where
  drawn : ∀ p c, s.caller p = some c → ∀ id ∈ c.ids, Drawn s.world id
  nodup : ∀ p c, s.caller p = some c → c.ids.Nodup
  apart : ∀ p q c d, s.caller p = some c → s.caller q = some d → p ≠ q → ∀ id ∈ c.ids, id ∉ d.ids
  rows : ∀ id ∈ s.world.tables.ids, Drawn s.world id
  unused : ∀ p c, s.caller p = some c → ¬ c.Finished → ∀ id ∈ c.ids, id ∉ s.world.tables.ids

section Unshared

variable {s s' : System Stage} {p : Party} {c : Caller Stage} {now : Instant} {w : World} {σ : Stage}
  {answered : Option Op} {event : Event} {id : Uuid}

/-- Only a record that was just appended is new to its call. -/
theorem Stage.Move.recordId? {w w' : World} {σ σ' : Stage}
    (move : Stage.Move w p now σ w' σ' answered) (h : σ'.recordId? = some id) :
    id = w.fresh w.used ∧ w'.used = w.used + 1 := by
  cases move with
  | append => exact ⟨(Option.some.inj h).symm, rfl⟩
  | _ => cases h

theorem unshared_opened (fresh : Nat → Uuid) : Unshared (System.opened fresh {}) := by
  refine ⟨?_, ?_, ?_, ?_, ?_⟩
  case refine_4 =>
    intro id hid
    cases hid
  all_goals intros; contradiction

theorem Stage.start_recordId? {fundId entryId : Uuid} (call : Call) :
    (Stage.start fundId entryId now call).recordId? = none := by
  cases hstage : Stage.start fundId entryId now call with
  | committing o e r =>
    have hnone : (Stage.start fundId entryId now call).journal? = none := Stage.start_journal? call
    rw [hstage] at hnone
    cases hnone
  | _ => rfl

theorem Caller.ids_arriving (w : World) (call : Call) (now : Instant) :
    (Caller.arriving w call now).ids = [w.fresh w.used, w.fresh (w.used + 1)] := by
  rw [Caller.ids, show (Caller.arriving w call now).progress.recordId? = none from
    Stage.start_recordId? call]
  rfl

theorem Unshared.arrives {call : Call} (h : Unshared s) (new : s.caller p = none)
    (hids : DistinctIds s.world.fresh (s.world.used + 2)) :
    Unshared (s.arrive stages p call now) := by
  have hlater : ∀ {id}, Drawn s.world id → Drawn (System.arrived s.world) id := fun hd =>
    hd.mono rfl (Nat.le_add_right _ 2)
  have hnew : ∀ id ∈ (Caller.arriving s.world call now).ids, ¬ Drawn s.world id ∧
      Drawn (System.arrived s.world) id := by
    intro id hid
    rw [Caller.ids_arriving] at hid
    rcases List.mem_pair.mp hid with rfl | rfl
    · exact ⟨hids.not_drawn (Nat.le_refl _) (by omega), s.world.used, by simp [System.arrived], rfl⟩
    · exact ⟨hids.not_drawn (Nat.le_succ _) (by omega), s.world.used + 1, by simp [System.arrived],
        rfl⟩
  refine ⟨?_, ?_, ?_, fun id hid => hlater (h.rows id hid), ?_⟩
  · intro q d hd
    rcases System.arrive_caller hd with ⟨-, rfl⟩ | ⟨-, hd⟩
    · exact fun id hid => (hnew id hid).2
    · exact fun id hid => hlater (h.drawn q d hd id hid)
  · intro q d hd
    rcases System.arrive_caller hd with ⟨-, rfl⟩ | ⟨-, hd⟩
    · rw [Caller.ids_arriving]
      have hne : s.world.fresh s.world.used ≠ s.world.fresh (s.world.used + 1) := fun heq => by
        have := hids _ (by omega) _ (by omega) heq
        omega
      simp [hne]
    · exact h.nodup q d hd
  · intro q r d d' hd hd' hne id hid hid'
    rcases System.arrive_caller hd with ⟨rfl, rfl⟩ | ⟨-, hd⟩
    · rcases System.arrive_caller hd' with ⟨rfl, -⟩ | ⟨-, hd'⟩
      · exact hne rfl
      · exact (hnew id hid).1 (h.drawn r d' hd' id hid')
    · rcases System.arrive_caller hd' with ⟨-, rfl⟩ | ⟨-, hd'⟩
      · exact (hnew id hid').1 (h.drawn q d hd id hid)
      · exact h.apart q r d d' hd hd' hne id hid hid'
  · intro q d hd hunfinished
    rcases System.arrive_caller hd with ⟨-, rfl⟩ | ⟨-, hd⟩
    · exact fun id hid hrow => (hnew id hid).1 (h.rows id hrow)
    · exact h.unused q d hd hunfinished

/-- An id of a call after a move was the call's before, or was not drawn then. -/
theorem Unshared.moved_ids (h : Unshared s) (hc : s.caller p = some c)
    (move : Stage.Move s.world p now c.progress w σ answered) (hids : DistinctIds w.fresh w.used)
    (hid : id ∈ (c.moved σ answered).ids) :
    (id = c.fundId ∨ id = c.entryId ∨ ¬ Drawn s.world id) ∧ Drawn w id := by
  have hframe := move.frame
  have hold : ∀ id ∈ c.ids, Drawn w id := fun id hid =>
    (h.drawn p c hc id hid).mono hframe.fresh hframe.used
  rcases List.mem_cons.mp hid with rfl | hid
  · exact ⟨Or.inl rfl, hold _ List.mem_cons_self⟩
  · rcases List.mem_cons.mp hid with rfl | hid
    · exact ⟨Or.inr (Or.inl rfl), hold _ (by simp [Caller.ids, Caller.moved])⟩
    · obtain ⟨rfl, hused⟩ := move.recordId? (Option.mem_toList.mp hid)
      rw [hused, hframe.fresh] at hids
      exact ⟨Or.inr (Or.inr (hids.not_drawn (Nat.le_refl _) (by omega))), s.world.used, by omega,
        by rw [hframe.fresh]⟩

theorem Unshared.moved_nodup (h : Unshared s) (hc : s.caller p = some c)
    (move : Stage.Move s.world p now c.progress w σ answered) (hids : DistinctIds w.fresh w.used) :
    (c.moved σ answered).ids.Nodup := by
  cases hrecord : σ.recordId? with
  | none =>
    have hsub : (c.moved σ answered).ids.Sublist c.ids := by
      simp [Caller.ids, Caller.moved, hrecord]
    exact (h.nodup p c hc).sublist hsub
  | some id =>
    have hnew : ¬ Drawn s.world id := by
      obtain ⟨rfl, hused⟩ := move.recordId? hrecord
      rw [hused, move.frame.fresh] at hids
      exact hids.not_drawn (Nat.le_refl _) (by omega)
    have hdrawn := h.drawn p c hc
    have hfund : c.fundId ≠ id := fun heq => hnew (heq ▸ hdrawn _ List.mem_cons_self)
    have hentry : c.entryId ≠ id := fun heq =>
      hnew (heq ▸ hdrawn _ (List.mem_cons_of_mem _ List.mem_cons_self))
    have hne : c.fundId ≠ c.entryId := fun heq =>
      (List.nodup_cons.mp (h.nodup p c hc)).1 (heq ▸ List.mem_cons_self)
    simp [Caller.ids, Caller.moved, hrecord, hfund, hentry, hne]

/-- A row after a move has an id that some row had before, or that the answered call took. -/
theorem Sound.moved_row (sound : Sound s) (hc : s.caller p = some c)
    (hunfinished : ¬ c.Finished) (move : Stage.Move s.world p now c.progress w σ answered)
    (hids : DistinctIds w.fresh w.used) (hrow : id ∈ w.tables.ids) :
    id ∈ s.world.tables.ids ∨
      (σ.answer? ≠ none ∧ (id ∈ c.ids ∨ (¬ Drawn s.world id ∧ Drawn w id))) := by
  cases sound.change hc move hids with
  | same tables => exact Or.inl (tables ▸ hrow)
  | reset _ tables =>
    rw [tables] at hrow
    cases hrow
  | @founded f e stage _ _ tables =>
    have hrows : c.progress.founding? = some (f, e) := by
      rw [stage]
      rfl
    obtain ⟨name, total, owner, -, hf, he⟩ := (sound.origin p c hc).founding f e hrows
    rw [tables] at hrow
    rcases Tables.mem_ids_founded (sound.founding_new hc hunfinished hrows).1 hrow with
      hold | rfl | rfl
    · exact Or.inl hold
    · exact Or.inr ⟨nofun, Or.inl (by simp [Caller.ids, hf.id])⟩
    · exact Or.inr ⟨nofun, Or.inl (by simp [Caller.ids, he.id])⟩
  | @settled o source r e new stage _ admits unused drawn tables =>
    rw [tables] at hrow
    rcases Tables.mem_ids_settled sound.tables admits
      (fun hmem => unused (sound.entryIds_drawn hmem)) hrow with hold | rfl | rfl
    · exact Or.inl hold
    · exact Or.inr ⟨nofun, Or.inl (by simp [Caller.ids, stage, Stage.recordId?])⟩
    · exact Or.inr ⟨nofun, Or.inr ⟨unused, drawn⟩⟩

theorem Unshared.moves (h : Unshared s) (sound : Sound s) (hc : s.caller p = some c)
    (hunfinished : ¬ c.Finished) (move : Stage.Move s.world p now c.progress w σ answered)
    (hids : DistinctIds w.fresh w.used) : Unshared (s.moved p c w σ answered) := by
  have hframe := move.frame
  have hlater : ∀ {id}, Drawn s.world id → Drawn (s.moved p c w σ answered).world id := fun hd =>
    hd.mono (by rw [System.moved_fresh, hframe.fresh]) (by rw [System.moved_used]; exact hframe.used)
  have hself : ∀ id ∈ (c.moved σ answered).ids, (id = c.fundId ∨ id = c.entryId ∨
      ¬ Drawn s.world id) ∧ Drawn w id := fun id hid => h.moved_ids hc move hids hid
  have hown : ∀ {q d id}, q ≠ p → s.caller q = some d → id ∈ d.ids →
      id ∉ (c.moved σ answered).ids := by
    intro q d id hq hd hid hmine
    have hapart := h.apart q p d c hd hc hq id hid
    rcases (hself id hmine).1 with rfl | rfl | hnew
    · exact hapart List.mem_cons_self
    · exact hapart (List.mem_cons_of_mem _ List.mem_cons_self)
    · exact hnew (h.drawn q d hd id hid)
  refine ⟨?_, ?_, ?_, ?_, ?_⟩
  · intro q d hd
    rcases System.moved_caller hd with ⟨-, rfl⟩ | ⟨-, hd⟩
    · exact fun id hid => (hself id hid).2.mono System.moved_fresh (by simp)
    · exact fun id hid => hlater (h.drawn q d hd id hid)
  · intro q d hd
    rcases System.moved_caller hd with ⟨-, rfl⟩ | ⟨-, hd⟩
    · exact h.moved_nodup hc move hids
    · exact h.nodup q d hd
  · intro q r d d' hd hd' hne id hid
    rcases System.moved_caller hd with ⟨rfl, rfl⟩ | ⟨hq, hold⟩
    · rcases System.moved_caller hd' with ⟨rfl, -⟩ | ⟨hr, hold'⟩
      · exact absurd rfl hne
      · exact fun hid' => hown hr hold' hid' hid
    · rcases System.moved_caller hd' with ⟨rfl, rfl⟩ | ⟨-, hold'⟩
      · exact hown hq hold hid
      · exact h.apart q r d d' hold hold' hne id hid
  · intro id hrow
    rw [System.moved_tables] at hrow
    rcases sound.moved_row hc hunfinished move hids hrow with hold | ⟨-, hmine | hnew⟩
    · exact hlater (h.rows id hold)
    · exact hlater (h.drawn p c hc id hmine)
    · exact hnew.2.mono System.moved_fresh (by simp)
  · intro q d hd hunfinished' id hid hrow
    rw [System.moved_tables] at hrow
    have hcase := sound.moved_row hc hunfinished move hids hrow
    rcases System.moved_caller hd with ⟨rfl, rfl⟩ | ⟨hq, hd⟩
    · have hopen : σ.answer? = none := by
        by_contra hsome
        obtain ⟨a, ha⟩ := Option.ne_none_iff_exists'.mp hsome
        exact hunfinished' ⟨a, Stage.answer?_eq_some.mp ha⟩
      rcases hcase with hold | ⟨hanswered, -⟩
      · rcases (hself id hid).1 with rfl | rfl | hnew
        · exact h.unused q c hc hunfinished _ List.mem_cons_self hold
        · exact h.unused q c hc hunfinished _ (List.mem_cons_of_mem _ List.mem_cons_self) hold
        · exact hnew (h.rows id hold)
      · exact hanswered hopen
    · rcases hcase with hold | ⟨-, hmine | hnew⟩
      · exact h.unused q d hd hunfinished' id hid hold
      · exact h.apart q p d c hd hc hq id hid hmine
      · exact hnew.1 (h.drawn q d hd id hid)

theorem Unshared.step (h : Unshared s) (sound : Sound s) (hs : s.Step event s')
    (hids : DistinctIds s'.world.fresh s'.world.used) : Unshared s' := by
  cases hs with
  | ignored => exact h
  | arrives new => exact h.arrives new hids
  | moves caller unfinished move => exact h.moves sound caller unfinished move (by simpa using hids)

theorem unshared_run {fresh : Nat → Uuid} (es : List Event)
    (hids : DistinctIds fresh ((System.opened fresh {}).run stages es).world.used) :
    Unshared ((System.opened fresh {}).run stages es) := by
  refine (System.run_induction (I := fun s => Sound s ∧ Unshared s)
    ⟨sound_opened fresh, unshared_opened fresh⟩ ?_ es hids).2
  intro s e s' h hs hids
  exact ⟨h.1.step hs hids, h.2.step h.1 hs hids⟩

end Unshared

end UnitLedger.Concurrent
