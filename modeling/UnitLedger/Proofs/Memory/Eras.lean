import UnitLedger.Proofs.Memory.Line

/-!
  UnitLedger.Proofs.Memory.Eras — locks of several eras.

  When the lock table is emptied its locks are not given back: whoever stands in the line of a lock
  goes on standing there, and the row has a new lock besides. So a row may have several locks, but at
  most one of each era (`Keyed`), and whoever comes to a line comes to one of the present era
  (`Acquires.inLine`). While the lock table is not emptied all locks are of one era (`Level`), and each
  row has one line.
-/

namespace UnitLedger.Memory.RowLocks

variable {ls ls' : RowLocks} {p q : Party} {row r : Uuid} {era : Nat} {rows : List Uuid}

def InLine (ls : RowLocks) (p : Party) (row : Uuid) (era : Nat) : Prop :=
  ∃ l ∈ ls.held, l.row = row ∧ l.era = era ∧ p ∈ l.holder :: l.queue

structure Keyed (ls : RowLocks) : Prop where
  keys : (ls.held.map fun l => (l.row, l.era)).Nodup
  eras : ∀ l ∈ ls.held, l.era ≤ ls.era

theorem holds_iff_exists : ls.holds p row = true ↔ ∃ l ∈ ls.held, l.row = row ∧ l.holder = p := by
  simp [holds]

/-- Who stands in no line holds no row and waits for none. -/
theorem free_of_not_inLine (h : ∀ row era, ¬ ls.InLine p row era) :
    (∀ row, ls.holds p row = false) ∧ ls.waits p = false := by
  refine ⟨fun row => ?_, ?_⟩
  · rw [← Bool.not_eq_true, holds_iff_exists]
    rintro ⟨l, hl, hrow, rfl⟩
    exact h row l.era ⟨l, hl, hrow, rfl, List.mem_cons_self⟩
  · rw [← Bool.not_eq_true, waits, List.any_eq_true]
    rintro ⟨l, hl, hqueue⟩
    exact h l.row l.era ⟨l, hl, rfl, rfl, List.mem_cons_of_mem _ (List.contains_iff_mem.mp hqueue)⟩

/-- Two parties hold a row only by locks of different eras. -/
theorem Keyed.holds_twice (h : ls.Keyed) (hp : ls.holds p row = true) (hq : ls.holds q row = true)
    (hne : p ≠ q) : ∃ i j, i ≠ j ∧ ls.InLine p row i ∧ ls.InLine q row j := by
  obtain ⟨l, hl, rfl, rfl⟩ := holds_iff_exists.mp hp
  obtain ⟨m, hm, hrow, rfl⟩ := holds_iff_exists.mp hq
  refine ⟨l.era, m.era, fun hera => hne ?_, ⟨l, hl, rfl, rfl, List.mem_cons_self⟩,
    ⟨m, hm, hrow, rfl, List.mem_cons_self⟩⟩
  rw [List.inj_on_of_nodup_map h.keys hl hm (by rw [hrow, hera])]

/-! ## Asking -/

inductive Acquires (p : Party) (rows : List Uuid) (ls : RowLocks) : RowLocks → Prop where
  | refl : Acquires p rows ls ls
  | tail {now : RowLocks} {next : Uuid} (before : Acquires p rows ls now) (mem : next ∈ rows) :
      Acquires p rows ls (now.acquire p next).1

theorem Acquires.single (ls : RowLocks) (p : Party) (mem : row ∈ rows) :
    Acquires p rows ls (ls.acquire p row).1 :=
  .tail .refl mem

theorem Acquires.trans {ls₁ ls₂ ls₃ : RowLocks} (h : Acquires p rows ls₁ ls₂)
    (h' : Acquires p rows ls₂ ls₃) : Acquires p rows ls₁ ls₃ := by
  induction h' with
  | refl => exact h
  | tail _ mem ih => exact .tail ih mem

/-- Where no row that is asked for has a lock of an older era, asking comes to the end of lines. -/
theorem Acquires.asks (h : Acquires p rows ls ls') (sane : ls.Sane rows) : Asks p rows ls ls' := by
  induction h with
  | refl => exact .refl sane
  | tail _ mem ih => exact ih.trans (.acquire ih.sane mem)

theorem Acquires.same_era (h : Acquires p rows ls ls') : ls'.era = ls.era := by
  induction h with
  | refl => rfl
  | tail _ _ ih => rw [acquire_era, ih]

/-- A lock that is asked for is either new, with the asker alone in its line, or the asker has come to
the end of the line of the row's present lock. -/
theorem acquire_inLine (h : (ls.acquire p row).1.InLine q r era) :
    ls.InLine q r era ∨ (q = p ∧ r = row ∧ era = ls.era) := by
  obtain ⟨l, hl, rfl, rfl, hq⟩ := h
  unfold acquire at hl
  split at hl
  · exact Or.inl ⟨l, hl, rfl, rfl, hq⟩
  · split at hl
    · rcases List.mem_append.mp hl with hl | hl
      · exact Or.inl ⟨l, hl, rfl, rfl, hq⟩
      · obtain rfl := List.mem_singleton.mp hl
        exact Or.inr ⟨List.mem_singleton.mp hq, rfl, rfl⟩
    · obtain ⟨m, hm, rfl⟩ := List.mem_map.mp hl
      by_cases hkey : (m.row == row && m.era == ls.era) = true
      · simp only [hkey, if_true] at hq ⊢
        rw [← List.cons_append] at hq
        rcases List.mem_append.mp hq with hq | hq
        · exact Or.inl ⟨m, hm, rfl, rfl, hq⟩
        · simp only [Bool.and_eq_true, beq_iff_eq] at hkey
          exact Or.inr ⟨List.mem_singleton.mp hq, hkey.1, hkey.2⟩
      · simp only [hkey, Bool.false_eq_true, if_false] at hq ⊢
        exact Or.inl ⟨m, hm, rfl, rfl, hq⟩

theorem Acquires.inLine (h : Acquires p rows ls ls') (hq : ls'.InLine q row era) :
    ls.InLine q row era ∨ (q = p ∧ row ∈ rows ∧ era = ls.era) := by
  induction h with
  | refl => exact Or.inl hq
  | tail before mem ih =>
    rcases acquire_inLine hq with hq | ⟨rfl, rfl, rfl⟩
    · exact ih hq
    · exact Or.inr ⟨rfl, mem, before.same_era⟩

theorem Keyed.acquire (h : ls.Keyed) : (ls.acquire p row).1.Keyed := by
  refine ⟨?_, fun l hl => ?_⟩
  · unfold RowLocks.acquire
    split
    · exact h.keys
    · split
      · rename_i hfree
        simp only [List.map_append, List.map_cons, List.map_nil]
        refine List.nodup_append.mpr ⟨h.keys, by simp, ?_⟩
        intro a ha b hb hab
        obtain ⟨l, hl, rfl⟩ := List.mem_map.mp ha
        rw [List.mem_singleton.mp hb, Prod.mk.injEq] at hab
        have := List.find?_eq_none.mp hfree l hl
        simp [hab] at this
      · have hkeys : ls.held.map ((fun l => (l.row, l.era)) ∘ fun l =>
            if l.row == row && l.era == ls.era then { l with queue := l.queue ++ [p] } else l) =
            ls.held.map fun l => (l.row, l.era) := by
          refine List.map_congr_left fun l _ => ?_
          simp only [Function.comp_apply]
          split <;> rfl
        rw [List.map_map, hkeys]
        exact h.keys
  · rw [acquire_era]
    rcases acquire_held hl with ⟨-, hera⟩ | ⟨l', hl', -, hera⟩
    · exact Nat.le_of_eq hera
    · exact hera ▸ h.eras l' hl'

theorem Keyed.acquires (h : ls.Keyed) (hacq : Acquires p rows ls ls') : ls'.Keyed := by
  induction hacq with
  | refl => exact h
  | tail _ _ ih => exact ih.acquire

/-! ## Leaving -/

theorem leave_inLine (h : (ls.leave p).InLine q row era) : ls.InLine q row era := by
  obtain ⟨l, hl, rfl, rfl, hq⟩ := h
  obtain ⟨m, hm, rfl⟩ := List.mem_map.mp hl
  refine ⟨m, hm, rfl, rfl, ?_⟩
  rcases List.mem_cons.mp hq with rfl | hq
  · exact List.mem_cons_self
  · exact List.mem_cons_of_mem _ (List.mem_filter.mp hq).1

theorem Keyed.leave (h : ls.Keyed) : (ls.leave p).Keyed := by
  refine ⟨by simpa [RowLocks.leave, Function.comp_def] using h.keys, fun l hl => ?_⟩
  obtain ⟨l', hl', -, hera⟩ := leave_held hl
  exact hera ▸ h.eras l' hl'

/-- Who has given every lock back and left every queue stands in no line, and the others stand where
they stood. -/
theorem close_inLine (h : ((ls.leave p).release p).InLine q row era) :
    q ≠ p ∧ ls.InLine q row era := by
  obtain ⟨l, hl, rfl, rfl, hq⟩ := h
  obtain ⟨m, hm, hpass⟩ := List.mem_filterMap.mp hl
  obtain ⟨n, hn, rfl⟩ := List.mem_map.mp hm
  obtain ⟨hrow, hera⟩ := pass_keeps hpass
  simp only at hrow hera
  -- The lock has passed on, or its holder is another one.
  unfold RowLock.pass at hpass
  simp only at hpass
  split at hpass
  · rename_i hholder
    split at hpass
    · cases hpass
    · rename_i next rest hqueue
      cases hpass
      have hmem : q ∈ n.queue.filter (· != p) := by rw [hqueue]; exact hq
      obtain ⟨hmem, hne⟩ := List.mem_filter.mp hmem
      exact ⟨by simpa using hne, n, hn, rfl, rfl, List.mem_cons_of_mem _ hmem⟩
  · rename_i hholder
    cases hpass
    rcases List.mem_cons.mp hq with rfl | hq
    · exact ⟨hholder, n, hn, rfl, rfl, List.mem_cons_self⟩
    · obtain ⟨hmem, hne⟩ := List.mem_filter.mp hq
      exact ⟨by simpa using hne, n, hn, rfl, rfl, List.mem_cons_of_mem _ hmem⟩

theorem Keyed.release (h : ls.Keyed) : (ls.release p).Keyed := by
  have hkeys : ∀ held : List RowLock, ((held.filterMap (RowLock.pass p)).map fun l =>
      (l.row, l.era)).Sublist (held.map fun l => (l.row, l.era)) := by
    intro held
    induction held with
    | nil => simp
    | cons l rest ih =>
      cases hpass : RowLock.pass p l with
      | none =>
        rw [List.filterMap_cons_none hpass]
        exact ih.cons _
      | some l' =>
        obtain ⟨hrow, hera⟩ := pass_keeps hpass
        rw [List.filterMap_cons_some hpass, List.map_cons, List.map_cons, hrow, hera]
        exact ih.cons_cons _
  refine ⟨h.keys.sublist (hkeys ls.held), fun l hl => ?_⟩
  obtain ⟨l', hl', -, hera⟩ := release_held hl
  exact hera ▸ h.eras l' hl'

theorem Keyed.clear (h : ls.Keyed) : ls.clear.Keyed :=
  ⟨h.keys, fun l hl => Nat.le_succ_of_le (h.eras l hl)⟩

/-! ## One era -/

structure Level (ls : RowLocks) : Prop where
  tidy : ls.Tidy
  present : ∀ l ∈ ls.held, l.era = ls.era

theorem Level.sane (h : ls.Level) (rows : List Uuid) : ls.Sane rows :=
  ⟨h.tidy, fun _ _ l hl _ => h.present l hl⟩

theorem Level.acquires (h : ls.Level) (hacq : Acquires p rows ls ls') : ls'.Level := by
  induction hacq with
  | refl => exact h
  | @tail now next _ _ ih =>
    refine ⟨ih.tidy.acquire fun l hl _ => ih.present l hl, fun l hl => ?_⟩
    rw [acquire_era]
    rcases acquire_held hl with ⟨-, hera⟩ | ⟨l', hl', -, hera⟩
    · exact hera
    · exact hera ▸ ih.present l' hl'

theorem Level.leave (h : ls.Level) : (ls.leave p).Level := by
  refine ⟨h.tidy.leave, fun l hl => ?_⟩
  obtain ⟨l', hl', -, hera⟩ := leave_held hl
  exact hera ▸ h.present l' hl'

theorem Level.release (h : ls.Level) : (ls.release p).Level := by
  refine ⟨h.tidy.release, fun l hl => ?_⟩
  obtain ⟨l', hl', -, hera⟩ := release_held hl
  exact hera ▸ h.present l' hl'

/-- Whoever asks for a lock stands in its line then. -/
theorem Level.mem_acquire (h : ls.Level) (p : Party) (row : Uuid) :
    p ∈ (ls.acquire p row).1.line row := by
  rw [line_acquire h.tidy fun l hl _ => h.present l hl]
  split
  · exact List.mem_append_right _ (List.mem_singleton_self p)
  · rename_i hhead
    exact List.mem_of_mem_head? (by simpa using hhead)

end UnitLedger.Memory.RowLocks
