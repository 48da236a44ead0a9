import UnitLedger.Proofs.Concurrent.Frame

/-!
  UnitLedger.Proofs.Concurrent.Locking — what locking the rows of a transfer finds.

  The rows of the owners are locked one after the other, in the order of their names. An owner
  without an entry is passed over. `lockRows_found`: the entries that are found are those of the
  owners, in order, up to the one whose lock must be waited for.
-/

namespace UnitLedger.Memory.World

variable {p : Party}

def found (t : Tables) (fund : Uuid) (owners : List String) : List Entry :=
  owners.filterMap (t.activeOf fund)

theorem mem_found {t : Tables} {fund : Uuid} {owners : List String} {e : Entry}
    (h : e ∈ found t fund owners) : e ∈ t.entries ∧ e.fund = fund ∧ e.owner ∈ owners := by
  obtain ⟨owner, howner, he⟩ := List.mem_filterMap.mp h
  obtain ⟨hmem, hfund, rfl, -⟩ := Tables.mem_of_activeOf he
  exact ⟨hmem, hfund, howner⟩

theorem reread_eq {w : World} (wf : w.tables.WellFormed) (hj : w.journal p = []) (id : Uuid) :
    w.reread p id = (w.tables.entryById id).toList := by
  unfold reread
  rw [wf.entryById_filter, hj]
  cases w.tables.entryById id <;> rfl

def Found (t : Tables) (fund : Uuid) (owners : List String) (locked : List Entry) :
    Except StoreError (List Entry) ⊕ (Uuid × List String × List Entry) → Prop
  | .inl r => r = .ok (locked ++ found t fund owners)
  | .inr (row, rest, locked') => ∃ done owner e, owners = done ++ owner :: rest ∧
      t.activeOf fund owner = some e ∧ e.id = row ∧ locked' = locked ++ found t fund done

theorem lockRows_found (fund : Uuid) (owners : List String) {w : World} (locked : List Entry)
    (wf : w.tables.WellFormed) (hj : w.journal p = []) :
    Found w.tables fund owners locked (lockRows p fund w owners locked).2 := by
  induction owners generalizing w locked with
  | nil => simp [lockRows, Found, found]
  | cons owner rest ih =>
    -- What is found first stands before what is found later.
    have hstep : ∀ (w' : World) (first : List Entry), w'.tables = w.tables → w'.journal p = [] →
        found w.tables fund [owner] = first →
        Found w.tables fund (owner :: rest) locked
          (lockRows p fund w' rest (locked ++ first)).2 := by
      intro w' first htables hj' hfirst
      have hrest := ih (w := w') (locked ++ first) (htables ▸ wf) hj'
      rw [htables] at hrest
      have hsplit : ∀ owners', found w.tables fund (owner :: owners') =
          first ++ found w.tables fund owners' := by
        intro owners'
        rw [← hfirst]
        show (([owner] ++ owners').filterMap _) = _
        exact List.filterMap_append
      revert hrest
      rcases (lockRows p fund w' rest (locked ++ first)).2 with r | ⟨row, rest', locked'⟩
      · intro hr
        simpa [Found, hsplit] using hr
      · rintro ⟨done, owner', e, rfl, he, hid, rfl⟩
        exact ⟨owner :: done, owner', e, rfl, he, hid, by rw [hsplit, List.append_assoc]⟩
    unfold lockRows
    cases he : w.tables.activeOf fund owner with
    | none =>
      dsimp only
      have hown : ((w.journal p).createdEntry fund owner).toList.map (w.journal p).overlay = [] := by
        rw [hj]
        rfl
      rw [hown]
      exact hstep w [] rfl hj (by simp [found, he])
    | some e =>
      dsimp only
      rcases w.locks.acquire p e.id with ⟨locks, _ | _⟩
      · exact ⟨[], owner, e, rfl, he, rfl, by simp [found]⟩
      · have hread : w.reread p e.id = [e] := by
          rw [reread_eq wf hj, wf.entryById_eq_some.mpr ⟨(Tables.mem_of_activeOf he).1, rfl⟩]
          rfl
        dsimp only
        rw [hread]
        exact hstep { w with locks } [e] rfl hj (by simp [found, he])

/-- Locking rows does not fail, it only waits. -/
theorem lockRows_ok {fund : Uuid} {owners : List String} {w : World} {locked : List Entry}
    {r : Except StoreError (List Entry)} (h : (lockRows p fund w owners locked).2 = .inl r) :
    ∃ locked', r = .ok locked' := by
  induction owners generalizing w locked with
  | nil => exact ⟨locked, (Sum.inl.inj h).symm⟩
  | cons owner rest ih =>
    unfold lockRows at h
    split at h
    · exact ih h
    · split at h
      · exact ih h
      · cases h

/-! ## The order of the owners -/

theorem lockOrder_pair {a b : String} (h : a ≠ b) :
    lockOrder [a, b] = [a, b] ∨ lockOrder [a, b] = [b, a] := by
  simp only [lockOrder, List.foldr_cons, List.foldr_nil, insertOwner, if_neg h]
  split
  · exact Or.inl rfl
  · exact Or.inr rfl

theorem lockOrder_nodup {a b : String} (h : a ≠ b) : (lockOrder [a, b]).Nodup := by
  rcases lockOrder_pair h with heq | heq <;> rw [heq] <;> simp [h, Ne.symm h]

theorem mem_lockOrder {a b x : String} (h : a ≠ b) : x ∈ lockOrder [a, b] ↔ x = a ∨ x = b := by
  rcases lockOrder_pair h with heq | heq <;> rw [heq] <;> simp [or_comm]

/-- The entry of an owner among the committed ones. -/
theorem find_found {t : Tables} (fund : Uuid) (owners : List String) (owner : String) :
    (found t fund owners).find? (fun e => e.owner == owner) =
      if owner ∈ owners then t.activeOf fund owner else none := by
  induction owners with
  | nil => rfl
  | cons first rest ih =>
    cases he : t.activeOf fund first with
    | none =>
      rw [found, List.filterMap_cons_none he, ← found, ih]
      by_cases hfirst : owner = first
      · subst hfirst
        simp [he]
      · simp [hfirst]
    | some e =>
      have howner : e.owner = first := (Tables.mem_of_activeOf he).2.2.1
      rw [found, List.filterMap_cons_some he, ← found, List.find?_cons, howner]
      by_cases hfirst : first = owner
      · subst hfirst
        simp [he]
      · have hne : (first == owner) = false := by simpa using hfirst
        simp [hne, Ne.symm hfirst, ih]

end UnitLedger.Memory.World

namespace UnitLedger.Concurrent.Stage

open Memory (Party World)

theorem lockRun_ne_error {w w' : World} {p : Party} {σ : Stage} {o : TransferOrder} {e : StoreError} :
    σ.lockRun w p ≠ some (o, w', .inl (.error e)) := by
  intro h
  obtain ⟨owners, first, run⟩ := lockRun_rows h
  obtain ⟨locked, hok⟩ := World.lockRows_ok (congrArg Prod.snd run)
  cases hok

end UnitLedger.Concurrent.Stage
