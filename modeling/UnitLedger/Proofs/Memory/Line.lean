import Mathlib.Data.List.Nodup
import UnitLedger.Memory.RowLocks

/-!
  UnitLedger.Proofs.Memory.Line — a row's lock as a line of parties.

  The parties that hold or await the lock of a row stand in one line, its holder first
  (`RowLocks.line`). Each operation of the lock table is a small change of lines: asking joins the end
  of one line, closing a transaction takes the party out of every line, and giving up takes it out of
  every line that it does not lead. So the first of a line stays first until it leaves by itself, and
  those who wait keep their order.
-/

namespace UnitLedger.Memory.RowLocks

variable {ls : RowLocks} {p : Party} {row : Uuid}

/-- The holder of the row's lock and those who wait for it, in order. -/
def line (ls : RowLocks) (row : Uuid) : List Party :=
  match ls.held.find? fun l => l.row == row with
  | none => []
  | some l => l.holder :: l.queue

/-- No row has two locks, of whatever eras. -/
def Tidy (ls : RowLocks) : Prop := (ls.held.map (·.row)).Nodup

def Live (ls : RowLocks) (row : Uuid) : Prop := ∀ l ∈ ls.held, l.row = row → l.era = ls.era

theorem line_eq_nil : ls.line row = [] ↔ ∀ l ∈ ls.held, l.row ≠ row := by
  unfold line
  split
  · rename_i h
    simpa using h
  · rename_i l h
    have hrow := List.find?_some h
    simp only [reduceCtorEq, false_iff]
    intro hall
    exact hall l (List.mem_of_find?_eq_some h) (by simpa using hrow)

theorem line_of_mem (tidy : ls.Tidy) {l : RowLock} (hl : l ∈ ls.held) :
    ls.line l.row = l.holder :: l.queue := by
  unfold line
  split
  · rename_i h
    have := List.find?_eq_none.mp h l hl
    simp at this
  · rename_i l' h
    have hrow : l'.row = l.row := by simpa using List.find?_some h
    rw [List.inj_on_of_nodup_map tidy (List.mem_of_find?_eq_some h) hl hrow]

theorem exists_of_mem_line {q : Party} (h : q ∈ ls.line row) :
    ∃ l ∈ ls.held, l.row = row ∧ ls.line row = l.holder :: l.queue := by
  unfold line at h ⊢
  split at h
  · cases h
  · rename_i l hl
    exact ⟨l, List.mem_of_find?_eq_some hl, by simpa using List.find?_some hl, rfl⟩

theorem holds_iff (tidy : ls.Tidy) : ls.holds p row = true ↔ (ls.line row).head? = some p := by
  simp only [holds, List.any_eq_true, Bool.and_eq_true, beq_iff_eq]
  constructor
  · rintro ⟨l, hl, rfl, rfl⟩
    rw [line_of_mem tidy hl]
    rfl
  · intro h
    obtain ⟨l, hl, hrow, hline⟩ := exists_of_mem_line (List.mem_of_mem_head? h)
    rw [hline] at h
    exact ⟨l, hl, hrow, by simpa using h⟩

/-- Who stands in a line but waits nowhere leads it. -/
theorem head_of_not_waits (h : ls.waits p = false) (hp : p ∈ ls.line row) :
    (ls.line row).head? = some p := by
  obtain ⟨l, hl, -, hline⟩ := exists_of_mem_line hp
  have hqueue : p ∉ l.queue := by
    intro hmem
    rw [← Bool.not_eq_true] at h
    exact h (List.any_eq_true.mpr ⟨l, hl, by simpa using hmem⟩)
  rw [hline] at hp ⊢
  rcases List.mem_cons.mp hp with rfl | hp
  · rfl
  · exact absurd hp hqueue

/-! ## Asking for a lock -/

/-- The lines after a lock was asked for. -/
theorem line_acquire (tidy : ls.Tidy) (live : ls.Live row) (r : Uuid) :
    (ls.acquire p row).1.line r =
      if r = row ∧ (ls.line row).head? ≠ some p then ls.line r ++ [p] else ls.line r := by
  unfold acquire
  by_cases hholds : ls.holds p row = true
  · simp [hholds, (holds_iff tidy).mp hholds]
  · have hhead : (ls.line row).head? ≠ some p := fun h => hholds ((holds_iff tidy).mpr h)
    simp only [hholds, Bool.false_eq_true, if_false]
    split
    · rename_i hfree
      have hnone : ls.line row = [] := by
        refine line_eq_nil.mpr fun l hl hrow => ?_
        have := List.find?_eq_none.mp hfree l hl
        simp [hrow, live l hl hrow] at this
      by_cases hr : r = row
      · subst hr
        have hfind : ls.held.find? (fun l => l.row == r) = none := by
          simpa using line_eq_nil.mp hnone
        simp [line, hfind]
      · simp only [hr, false_and, if_false, line, List.find?_append]
        cases ls.held.find? fun l => l.row == r with
        | none => simp [Ne.symm hr]
        | some l => rfl
    · have hsame : ((fun l : RowLock => l.row == r) ∘ fun l => if l.row == row && l.era == ls.era
          then { l with queue := l.queue ++ [p] } else l) = fun l => l.row == r := by
        funext l
        simp only [Function.comp_apply]
        split <;> rfl
      simp only [line, List.find?_map, hsame]
      cases hfind : ls.held.find? fun l => l.row == r with
      | none =>
        have hnil : ls.line r = [] := by simp [line, hfind]
        by_cases hr : r = row
        · rename_i l hl
          have hrow : l.row = row ∧ l.era = ls.era := by simpa [current] using List.find?_some hl
          exact absurd hrow.1 (hr ▸ line_eq_nil.mp hnil l (List.mem_of_find?_eq_some hl))
        · simp [hr]
      | some l =>
        have hl := List.mem_of_find?_eq_some hfind
        have hrow : l.row = r := by simpa using List.find?_some hfind
        by_cases hr : r = row
        · subst hr
          have hhead' : l.holder ≠ p := by simpa [line, hfind] using hhead
          simp [hrow, live l hl hrow, hhead', hfind]
        · simp [hr, hrow]

/-- The party has the lock exactly if it leads the line then. -/
theorem acquire_granted (tidy : ls.Tidy) (live : ls.Live row) :
    (ls.acquire p row).2 = true ↔ ((ls.acquire p row).1.line row).head? = some p := by
  rw [line_acquire tidy live]
  by_cases hholds : ls.holds p row = true
  · have hhead := (holds_iff tidy).mp hholds
    simp [acquire, hholds, hhead]
  · have hhead : (ls.line row).head? ≠ some p := fun h => hholds ((holds_iff tidy).mpr h)
    simp only [acquire, hholds, Bool.false_eq_true, if_false, ne_eq, hhead, not_false_eq_true,
      and_self, if_true]
    split
    · rename_i hfree
      have hnone : ls.line row = [] := by
        refine line_eq_nil.mpr fun l hl hrow => ?_
        have := List.find?_eq_none.mp hfree l hl
        simp [hrow, live l hl hrow] at this
      simp [hnone]
    · rename_i l hl
      have hrow : l.row = row ∧ l.era = ls.era := by simpa [current] using List.find?_some hl
      have hline := line_of_mem tidy (List.mem_of_find?_eq_some hl)
      rw [hrow.1] at hline
      rw [hline] at hhead ⊢
      simpa using hhead

theorem acquire_held {l : RowLock} (hl : l ∈ (ls.acquire p row).1.held) :
    (l.row = row ∧ l.era = ls.era) ∨ ∃ l' ∈ ls.held, l'.row = l.row ∧ l'.era = l.era := by
  unfold acquire at hl
  split at hl
  · exact Or.inr ⟨l, hl, rfl, rfl⟩
  · split at hl
    · rcases List.mem_append.mp hl with hl | hl
      · exact Or.inr ⟨l, hl, rfl, rfl⟩
      · obtain rfl := List.mem_singleton.mp hl
        exact Or.inl ⟨rfl, rfl⟩
    · obtain ⟨l', hl', rfl⟩ := List.mem_map.mp hl
      refine Or.inr ⟨l', hl', ?_⟩
      split <;> exact ⟨rfl, rfl⟩

theorem acquire_era : (ls.acquire p row).1.era = ls.era := by
  unfold acquire
  repeat' split
  all_goals rfl

theorem Tidy.acquire (tidy : ls.Tidy) (live : ls.Live row) : (ls.acquire p row).1.Tidy := by
  unfold RowLocks.acquire
  split
  · exact tidy
  · split
    · rename_i hfree
      simp only [Tidy, List.map_append, List.map_cons, List.map_nil]
      refine List.nodup_append.mpr ⟨tidy, by simp, ?_⟩
      intro a ha b hb hab
      obtain ⟨l, hl, rfl⟩ := List.mem_map.mp ha
      rw [List.mem_singleton] at hb
      have hrow : l.row = row := hab.trans hb
      have := List.find?_eq_none.mp hfree l hl
      simp [hrow, live l hl hrow] at this
    · simp only [Tidy, List.map_map]
      have hrows : ls.held.map ((·.row) ∘ fun l => if l.row == row && l.era == ls.era
          then { l with queue := l.queue ++ [p] } else l) = ls.held.map (·.row) := by
        refine List.map_congr_left fun l _ => ?_
        simp only [Function.comp_apply]
        split <;> rfl
      rw [hrows]
      exact tidy

/-! ## Leaving -/

theorem line_leave (r : Uuid) :
    (ls.leave p).line r = (ls.line r).head?.toList ++ (ls.line r).tail.filter (· != p) := by
  have hsame : ((fun l : RowLock => l.row == r) ∘ fun l : RowLock =>
      { l with queue := l.queue.filter (· != p) }) = fun l : RowLock => l.row == r := rfl
  simp only [line, leave, List.find?_map, hsame]
  cases ls.held.find? fun l => l.row == r <;> rfl

theorem Tidy.leave (tidy : ls.Tidy) : (ls.leave p).Tidy := by
  simpa [Tidy, RowLocks.leave, Function.comp_def] using tidy

theorem leave_held {l : RowLock} (hl : l ∈ (ls.leave p).held) :
    ∃ l' ∈ ls.held, l'.row = l.row ∧ l'.era = l.era := by
  obtain ⟨l', hl', rfl⟩ := List.mem_map.mp hl
  exact ⟨l', hl', rfl, rfl⟩

theorem pass_keeps {l l' : RowLock} (h : RowLock.pass p l = some l') :
    l.row = l'.row ∧ l.era = l'.era := by
  unfold RowLock.pass at h
  split at h
  · split at h
    · cases h
    · cases h
      exact ⟨rfl, rfl⟩
  · cases h
    exact ⟨rfl, rfl⟩

theorem release_held {l : RowLock} (hl : l ∈ (ls.release p).held) :
    ∃ l' ∈ ls.held, l'.row = l.row ∧ l'.era = l.era := by
  obtain ⟨l', hl', hpass⟩ := List.mem_filterMap.mp hl
  exact ⟨l', hl', pass_keeps hpass⟩

theorem Tidy.release (tidy : ls.Tidy) : (ls.release p).Tidy := by
  have hrows : ∀ held : List RowLock,
      ((held.filterMap (RowLock.pass p)).map (·.row)).Sublist (held.map (·.row)) := by
    intro held
    induction held with
    | nil => simp
    | cons l rest ih =>
      cases h : RowLock.pass p l with
      | none =>
        rw [List.filterMap_cons_none h]
        exact ih.cons _
      | some l' =>
        rw [List.filterMap_cons_some h, List.map_cons, List.map_cons, (pass_keeps h).1]
        exact ih.cons_cons _
  exact tidy.sublist (hrows ls.held)

/-- A lock that is given back passes to the next in its line. -/
theorem line_release (tidy : ls.Tidy) (r : Uuid) :
    (ls.release p).line r =
      if (ls.line r).head? = some p then (ls.line r).tail else ls.line r := by
  cases hline : ls.line r with
  | nil =>
    have hnone := line_eq_nil.mp hline
    simp only [List.head?_nil, reduceCtorEq, if_false]
    refine line_eq_nil.mpr fun l hl hrow => ?_
    obtain ⟨l', hl', hrow', -⟩ := release_held hl
    exact hnone l' hl' (hrow'.trans hrow)
  | cons q rest =>
    obtain ⟨l, hl, rfl, hl'⟩ := exists_of_mem_line (show q ∈ ls.line r by simp [hline])
    rw [hline, List.cons.injEq] at hl'
    obtain ⟨rfl, rfl⟩ := hl'
    cases hpass : RowLock.pass p l with
    | some l' =>
      have hmem : l' ∈ (ls.release p).held := List.mem_filterMap.mpr ⟨l, hl, hpass⟩
      have hrow := (pass_keeps hpass).1
      rw [hrow, line_of_mem tidy.release hmem]
      unfold RowLock.pass at hpass
      by_cases hp : l.holder = p
      · rw [if_pos hp] at hpass
        split at hpass
        · cases hpass
        · rename_i next rest hqueue
          cases hpass
          simp [hp, hqueue]
      · rw [if_neg hp] at hpass
        cases hpass
        simp [hp]
    | none =>
      have hgone : (ls.release p).line l.row = [] := by
        refine line_eq_nil.mpr fun l'' hl'' hrow => ?_
        obtain ⟨l', hl', hpass'⟩ := List.mem_filterMap.mp hl''
        have : l' = l := List.inj_on_of_nodup_map tidy hl' hl ((pass_keeps hpass').1.trans hrow)
        rw [this, hpass] at hpass'
        cases hpass'
      rw [hgone]
      unfold RowLock.pass at hpass
      by_cases hp : l.holder = p
      · rw [if_pos hp] at hpass
        split at hpass
        · rename_i hqueue
          simp [hp, hqueue]
        · cases hpass
      · rw [if_neg hp] at hpass
        cases hpass

/-- Closing a transaction takes the party out of every line. -/
theorem line_close (tidy : ls.Tidy) (r : Uuid) :
    ((ls.leave p).release p).line r = (ls.line r).filter (· != p) := by
  rw [line_release tidy.leave, line_leave]
  cases ls.line r with
  | nil => simp
  | cons q rest =>
    by_cases hq : q = p
    · simp [hq]
    · simp [hq]

/-! ## One party among others -/

structure Sane (rows : List Uuid) (ls : RowLocks) : Prop where
  tidy : ls.Tidy
  live : ∀ row ∈ rows, ls.Live row

/-- The party has asked for locks of some of these rows and gave none back: it has come to the end
of some lines. -/
structure Asks (p : Party) (rows : List Uuid) (ls ls' : RowLocks) : Prop where
  sane : ls'.Sane rows
  held : ∀ l ∈ ls'.held, (∃ l' ∈ ls.held, l'.row = l.row) ∨ l.row ∈ rows
  lines : ∀ r, ∃ m, ls'.line r = ls.line r ++ List.replicate m p

structure Acts (p : Party) (rows : List Uuid) (ls ls' : RowLocks) : Prop where
  sane : ls'.Sane rows
  held : ∀ l ∈ ls'.held, (∃ l' ∈ ls.held, l'.row = l.row) ∨ l.row ∈ rows
  others : ∀ r, (ls'.line r).filter (· != p) = (ls.line r).filter (· != p)
  heads : ∀ r q, q ≠ p → (ls.line r).head? = some q → (ls'.line r).head? = some q

section Acts

variable {ls' ls'' : RowLocks} {q : Party} {rows : List Uuid}

theorem Asks.refl (sane : ls.Sane rows) : Asks p rows ls ls :=
  ⟨sane, fun l hl => Or.inl ⟨l, hl, rfl⟩, fun _ => ⟨0, by simp⟩⟩

theorem Asks.trans (h : Asks p rows ls ls') (h' : Asks p rows ls' ls'') : Asks p rows ls ls'' := by
  refine ⟨h'.sane, ?_, ?_⟩
  · intro l hl
    rcases h'.held l hl with ⟨l', hl', hrow⟩ | hrow
    · rcases h.held l' hl' with ⟨l'', hl'', hrow'⟩ | hrow'
      · exact Or.inl ⟨l'', hl'', hrow'.trans hrow⟩
      · exact Or.inr (hrow ▸ hrow')
    · exact Or.inr hrow
  · intro r
    obtain ⟨m, hm⟩ := h.lines r
    obtain ⟨n, hn⟩ := h'.lines r
    exact ⟨m + n, by rw [hn, hm, List.append_assoc, List.replicate_append_replicate]⟩

theorem Asks.acquire (sane : ls.Sane rows) (hrow : row ∈ rows) :
    Asks p rows ls (ls.acquire p row).1 := by
  have hlive := sane.live row hrow
  refine ⟨⟨sane.tidy.acquire hlive, ?_⟩, ?_, ?_⟩
  · intro r hr l hl hlr
    rw [acquire_era]
    rcases acquire_held hl with ⟨-, hera⟩ | ⟨l', hl', hrow', hera⟩
    · exact hera
    · exact hera ▸ sane.live r hr l' hl' (hrow'.trans hlr)
  · intro l hl
    rcases acquire_held hl with ⟨rfl, -⟩ | ⟨l', hl', hrow', -⟩
    · exact Or.inr hrow
    · exact Or.inl ⟨l', hl', hrow'⟩
  · intro r
    rw [line_acquire sane.tidy hlive]
    split
    · exact ⟨1, rfl⟩
    · exact ⟨0, by simp⟩

/-- Whoever leads a line still leads it when somebody has asked for locks. -/
theorem Asks.head (h : Asks p rows ls ls') {r : Uuid} (hhead : (ls.line r).head? = some q) :
    (ls'.line r).head? = some q := by
  obtain ⟨m, hm⟩ := h.lines r
  rw [hm, List.head?_append, hhead]
  rfl

theorem Asks.mem (h : Asks p rows ls ls') {r : Uuid} (hmem : q ∈ ls.line r) : q ∈ ls'.line r := by
  obtain ⟨m, hm⟩ := h.lines r
  rw [hm]
  exact List.mem_append_left _ hmem

theorem Asks.acts (h : Asks p rows ls ls') : Acts p rows ls ls' := by
  refine ⟨h.sane, h.held, ?_, fun r q _ hhead => h.head hhead⟩
  intro r
  obtain ⟨m, hm⟩ := h.lines r
  rw [hm, List.filter_append]
  simp

theorem Acts.trans (h : Acts p rows ls ls') (h' : Acts p rows ls' ls'') : Acts p rows ls ls'' := by
  refine ⟨h'.sane, ?_, fun r => (h'.others r).trans (h.others r),
    fun r q hq hhead => h'.heads r q hq (h.heads r q hq hhead)⟩
  intro l hl
  rcases h'.held l hl with ⟨l', hl', hrow⟩ | hrow
  · rcases h.held l' hl' with ⟨l'', hl'', hrow'⟩ | hrow'
    · exact Or.inl ⟨l'', hl'', hrow'.trans hrow⟩
    · exact Or.inr (hrow ▸ hrow')
  · exact Or.inr hrow

theorem Acts.leave (sane : ls.Sane rows) : Acts p rows ls (ls.leave p) := by
  refine ⟨⟨sane.tidy.leave, ?_⟩, ?_, ?_, ?_⟩
  · intro r hr l hl hlr
    obtain ⟨l', hl', hrow, hera⟩ := leave_held hl
    exact hera ▸ sane.live r hr l' hl' (hrow.trans hlr)
  · intro l hl
    obtain ⟨l', hl', hrow, -⟩ := leave_held hl
    exact Or.inl ⟨l', hl', hrow⟩
  · intro r
    rw [line_leave]
    cases ls.line r with
    | nil => rfl
    | cons q rest => simp [List.filter_cons, List.filter_filter]
  · intro r q _ hhead
    rw [line_leave, hhead]
    rfl

/-- Closing a transaction lets the others move up and takes no lock from them. -/
theorem Acts.close (sane : ls.Sane rows) : Acts p rows ls ((ls.leave p).release p) := by
  have hleft : Acts p rows ls (ls.leave p) := .leave sane
  refine ⟨⟨hleft.sane.tidy.release, ?_⟩, ?_, ?_, ?_⟩
  · intro r hr l hl hlr
    obtain ⟨l', hl', hrow, hera⟩ := release_held hl
    exact hera ▸ hleft.sane.live r hr l' hl' (hrow.trans hlr)
  · intro l hl
    obtain ⟨l', hl', hrow, -⟩ := release_held hl
    rcases hleft.held l' hl' with ⟨l'', hl'', hrow'⟩ | hrow'
    · exact Or.inl ⟨l'', hl'', hrow'.trans hrow⟩
    · exact Or.inr (hrow ▸ hrow')
  · intro r
    rw [line_close sane.tidy, List.filter_filter]
    simp
  · intro r q hq hhead
    rw [line_close sane.tidy]
    cases hline : ls.line r with
    | nil => simp [hline] at hhead
    | cons first rest =>
      rw [hline, List.head?_cons, Option.some.injEq] at hhead
      simp [hhead, hq]

theorem Acts.mem (h : Acts p rows ls ls') (hq : q ≠ p) {r : Uuid} :
    q ∈ ls'.line r ↔ q ∈ ls.line r := by
  have hfilter : ∀ l : List Party, q ∈ l.filter (· != p) ↔ q ∈ l := by
    intro l
    simp [hq]
  rw [← hfilter, h.others r, hfilter]

end Acts

end UnitLedger.Memory.RowLocks
