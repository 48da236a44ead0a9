import UnitLedger.Proofs.Concurrent.Locking
import UnitLedger.Proofs.Concurrent.Told

/-!
  UnitLedger.Proofs.Concurrent.Sound — what holds in every state of every run.

  Ids are the thread that ties the committed rows, the locked rows and the journals together. An id is
  `Spent` when it was drawn and no unfinished call may still give it to a new row. Every committed row
  has a spent id, and so has every entry that a transfer has locked; so a transfer that debits an
  entry by its id, however much later, debits its own source or nothing at all (`Rooted`), even when a
  reset came in between.

  `Sound` adds this, and that the tables are well-formed, to what is told of the calls.
  `Sound.change` reads off what one move can do to the tables: nothing, a reset, a founded fund or a
  settled transfer. `sound_run`: every state of every run is sound, as long as the ids that were drawn
  are distinct.
-/

namespace UnitLedger.Concurrent

open Memory (Party World Journal Tables)
open Store (Op)

/-! ## Ids -/

def Drawn (w : World) (id : Uuid) : Prop := ∃ n < w.used, w.fresh n = id

theorem Drawn.mono {w w' : World} {id : Uuid} (h : Drawn w id) (hfresh : w'.fresh = w.fresh)
    (hused : w.used ≤ w'.used) : Drawn w' id := by
  obtain ⟨n, hn, rfl⟩ := h
  exact ⟨n, Nat.lt_of_lt_of_le hn hused, by rw [hfresh]⟩

/-- What is yet to be drawn was not drawn before. -/
theorem DistinctIds.not_drawn {w : World} {n m : Nat} (h : DistinctIds w.fresh m) (hn : w.used ≤ n)
    (hm : n < m) : ¬ Drawn w (w.fresh n) := by
  rintro ⟨i, hi, heq⟩
  have := h i (by omega) n hm heq
  omega

inductive RowKind where
  | fund
  | entry

/-- The id that the call may give to a new row of this kind. -/
def Caller.newId (c : Caller Stage) : RowKind → Uuid
  | .fund => c.fundId
  | .entry => c.entryId

/-- The id was drawn, and no unfinished call may still give it to a new row of this kind. -/
def Spent (k : RowKind) (s : System Stage) (id : Uuid) : Prop :=
  Drawn s.world id ∧ ∀ p c, s.caller p = some c → ¬ c.Finished → c.newId k ≠ id

/-- The committed entry with the id of `e`, if there is one, is the same owner's in the same fund. -/
def Rooted (s : System Stage) (e : Entry) : Prop :=
  Spent .entry s e.id ∧
    ∀ d ∈ s.world.tables.entries, d.id = e.id → d.fund = e.fund ∧ d.owner = e.owner

section Ids

variable {s s' : System Stage} {e : Event} {k : RowKind} {id : Uuid}

theorem Drawn.step (h : Drawn s.world id) (hs : s.Step e s') : Drawn s'.world id :=
  h.mono (System.step_fresh hs) (System.step_used hs)

theorem Caller.newId_arriving {w : World} (call : Call) (now : Instant)
    (hids : DistinctIds w.fresh (w.used + 2)) (k : RowKind) :
    ¬ Drawn w ((Caller.arriving w call now).newId k) ∧
      Drawn (System.arrived w) ((Caller.arriving w call now).newId k) := by
  cases k with
  | fund =>
    refine ⟨hids.not_drawn (Nat.le_refl _) (by omega), w.used, ?_, rfl⟩
    simp [System.arrived]
  | entry =>
    refine ⟨hids.not_drawn (Nat.le_succ _) (by omega), w.used + 1, ?_, rfl⟩
    simp [System.arrived]

/-- What is spent stays spent. -/
theorem Spent.step (h : Spent k s id) (hs : s.Step e s')
    (hids : DistinctIds s'.world.fresh s'.world.used) : Spent k s' id := by
  refine ⟨h.1.step hs, ?_⟩
  cases hs with
  | ignored => exact h.2
  | @arrives p call now new =>
    intro q d hd hunfinished
    rcases System.arrive_caller hd with ⟨rfl, rfl⟩ | ⟨-, hd⟩
    · rintro rfl
      exact (Caller.newId_arriving call now hids k).1 h.1
    · exact h.2 q d hd hunfinished
  | @moves p now c w σ answered caller unfinished move =>
    intro q d hd hd'
    rcases System.moved_caller hd with ⟨rfl, rfl⟩ | ⟨-, hd⟩
    · exact h.2 q c caller unfinished
    · exact h.2 q d hd hd'

end Ids

/-! ## Soundness -/

structure Sound (s : System Stage) : Prop extends Told s where
  drawn : ∀ p c, s.caller p = some c → ∀ k, Drawn s.world (c.newId k)
  apart : ∀ p q c d, s.caller p = some c → s.caller q = some d → p ≠ q →
    ∀ k, c.newId k ≠ d.newId k
  tables : s.world.tables.WellFormed
  entries : ∀ e ∈ s.world.tables.entries, Spent .entry s e.id
  funds : ∀ f ∈ s.world.tables.funds, Spent .fund s f.id
  source : ∀ p c o e, s.caller p = some c → c.progress.source? = some (o, e) →
    e.fund = o.fund ∧ e.owner = o.source ∧ o.units ≤ e.units ∧ Rooted s e
  row : ∀ p c o row rest locked, s.caller p = some c → c.progress = .lockWaiting o row rest locked →
    ∃ e, e.id = row ∧ e.fund = o.fund ∧ Rooted s e
  locked : ∀ p c o row rest locked, s.caller p = some c →
    c.progress = .lockWaiting o row rest locked → ∀ e ∈ locked, e.fund = o.fund ∧ Rooted s e

inductive Change (s : System Stage) (c : Caller Stage) (now : Instant) (w : World) : Stage → Prop where
  | same {σ} (tables : w.tables = s.world.tables) : Change s c now w σ
  | reset {σ} (stage : c.progress = .resetting) (tables : w.tables = {}) : Change s c now w σ
  | founded {f e} (stage : c.progress = .committingFund f e)
      (id : s.world.tables.hasFund f.id = false) (name : s.world.tables.hasFundName f.name = false)
      (tables : w.tables = s.world.tables.founded f e) :
      Change s c now w (.finished (.fund (.ok f)))
  | settled {o source r e id} (stage : c.progress = .committing o source r)
      (sourceId : e.id = source.id) (admits : s.world.tables.Admits e r)
      (unused : ¬ Drawn s.world id) (drawn : Drawn w id)
      (tables : w.tables = s.world.tables.settled id now e r) :
      Change s c now w (.finished (.transfer (.ok r)))

section Change

variable {s : System Stage} {p : Party} {c : Caller Stage} {now : Instant} {w : World} {σ : Stage}
  {answered : Option Op}

theorem Sound.entryIds_drawn (h : Sound s) {id : Uuid} (hid : id ∈ s.world.tables.entryIds) :
    Drawn s.world id := by
  obtain ⟨e, he, rfl⟩ := List.mem_map.mp hid
  exact (h.entries e he).1

/-- The commit of a transfer settles its record, or it changes nothing. -/
theorem Sound.change_committing (h : Sound s) (hc : s.caller p = some c) {o : TransferOrder}
    {source : Entry} {r : Transfer} (hstage : c.progress = .committing o source r)
    (move : Stage.Move s.world p now (.committing o source r) w σ answered)
    (hids : DistinctIds w.fresh w.used) : Change s c now w σ := by
  obtain ⟨hw, hdone⟩ := move.of_committing
  have hj : s.world.journal p = Journal.move source.id r := h.journal p c _ hc (by rw [hstage]; rfl)
  obtain ⟨hfund, howner, -, hroot⟩ := h.source p c o source hc (by rw [hstage]; rfl)
  obtain ⟨id, t, hr⟩ := (h.origin p c hc).record o source r hstage
  have hrooted : ∀ e ∈ s.world.tables.entries, e.id = source.id →
      e.fund = r.fund ∧ e.owner = r.source := by
    intro e he hid
    obtain ⟨hf, ho⟩ := hroot.2 e he hid
    exact ⟨by rw [hf, hfund, hr]; rfl, by rw [ho, howner, hr]; rfl⟩
  have hused : w.used = s.world.used + 3 := by
    rw [hw]
    show s.world.used + (s.world.journal p).length = _
    rw [hj]
    rfl
  have hfresh := move.frame.fresh
  rw [hfresh, hused] at hids
  have hnew : ¬ Drawn s.world (s.world.fresh (s.world.used + 1)) :=
    hids.not_drawn (Nat.le_succ _) (by omega)
  have htables := move.tables
  simp only [Stage.tablesAfter, hj] at htables
  rcases Tables.commit_move (fun n => s.world.fresh (s.world.used + n)) now h.tables hrooted
    (fun hmem => hnew (h.entryIds_drawn hmem)) with ⟨e, he, hadmits, hcommit⟩ | ⟨v, hfailed⟩
  · rw [hcommit] at htables
    obtain rfl := hdone (by simp only [World.commitTx, hj, hcommit]; rfl)
    exact .settled hstage he hadmits hnew ⟨s.world.used + 1, by omega, by rw [hfresh]⟩ htables
  · rw [hfailed] at htables
    exact .same htables

/-- The commit of a creation founds the fund, or it changes nothing. -/
theorem Sound.change_committingFund (h : Sound s) (hc : s.caller p = some c) {f : Fund} {e : Entry}
    (hstage : c.progress = .committingFund f e)
    (move : Stage.Move s.world p now (.committingFund f e) w σ answered) : Change s c now w σ := by
  obtain ⟨-, hdone⟩ := move.of_committingFund
  have hj : s.world.journal p = Journal.founding f e := h.journal p c _ hc (by rw [hstage]; rfl)
  obtain ⟨name, total, owner, -, hf, he⟩ := (h.origin p c hc).founding f e (by rw [hstage]; rfl)
  have hcommit := Tables.commit_founding (fun n => s.world.fresh (s.world.used + n)) now h.tables
    he.fund he.nonneg
  have htables := move.tables
  simp only [Stage.tablesAfter, hj] at htables
  by_cases hid : s.world.tables.hasFund f.id = true
  · rw [hcommit, if_pos hid] at htables
    exact .same htables
  · by_cases hname : s.world.tables.hasFundName f.name = true
    · rw [hcommit, if_neg hid, if_pos hname] at htables
      exact .same htables
    · rw [if_neg hid, if_neg hname] at hcommit
      rw [hcommit] at htables
      obtain rfl := hdone (by simp only [World.commitTx, hj, hcommit]; rfl)
      exact .founded hstage (by simpa using hid) (by simpa using hname) htables

theorem Sound.change (h : Sound s) (hc : s.caller p = some c)
    (move : Stage.Move s.world p now c.progress w σ answered)
    (hids : DistinctIds w.fresh w.used) : Change s c now w σ := by
  have htables := move.tables
  cases hstage : c.progress with
  | committing o source r => exact h.change_committing hc hstage (hstage ▸ move) hids
  | committingFund f e => exact h.change_committingFund hc hstage (hstage ▸ move)
  | resetting =>
    rw [hstage] at htables
    exact .reset hstage htables
  | _ =>
    rw [hstage] at htables
    exact .same htables

/-- The rows of a creation are new. -/
theorem Sound.founding_new (h : Sound s) (hc : s.caller p = some c) (hunfinished : ¬ c.Finished)
    {f : Fund} {e : Entry} (hstage : c.progress.founding? = some (f, e)) :
    e.id ∉ s.world.tables.entryIds ∧ s.world.tables.hasFund f.id = false := by
  obtain ⟨name, total, owner, -, hf, he⟩ := (h.origin p c hc).founding f e hstage
  constructor
  · intro hid
    obtain ⟨d, hd, hde⟩ := List.mem_map.mp hid
    exact (h.entries d hd).2 p c hc hunfinished (he.id.symm.trans hde.symm)
  · rw [← Bool.not_eq_true, Tables.hasFund_iff]
    rintro ⟨g, hg, hgf⟩
    exact (h.funds g hg).2 p c hc hunfinished (hf.id.symm.trans hgf.symm)

/-- A committed entry is rooted. -/
theorem Sound.rooted (h : Sound s) {e : Entry} (he : e ∈ s.world.tables.entries) : Rooted s e := by
  refine ⟨h.entries e he, fun d hd hid => ?_⟩
  rw [h.tables.eq_of_id hd he hid]
  exact ⟨rfl, rfl⟩

def LocksRooted (s : System Stage) (fund : Uuid) : Stage.LockResult → Prop
  | .inl (.ok locked) => ∀ e ∈ locked, e.fund = fund ∧ Rooted s e
  | .inl (.error _) => True
  | .inr (row, _, locked) =>
    (∃ e, e.id = row ∧ e.fund = fund ∧ Rooted s e) ∧ ∀ e ∈ locked, e.fund = fund ∧ Rooted s e

/-- Whatever was locked before, what is locked next is committed. -/
theorem Sound.lockRows_rooted (h : Sound s) {w' : World} {out : Stage.LockResult} {fund : Uuid}
    {owners : List String} {first : List Entry} (hj : s.world.journal p = [])
    (hfirst : ∀ e ∈ first, e.fund = fund ∧ Rooted s e)
    (run : World.lockRows p fund s.world owners first = (w', out)) : LocksRooted s fund out := by
  have hall : ∀ owners', ∀ e ∈ first ++ World.found s.world.tables fund owners',
      e.fund = fund ∧ Rooted s e := by
    intro owners' e he
    rcases List.mem_append.mp he with he | he
    · exact hfirst e he
    · obtain ⟨hmem, hfund, -⟩ := World.mem_found he
      exact ⟨hfund, h.rooted hmem⟩
  have hfound := World.lockRows_found fund owners first h.tables hj
  rw [run] at hfound
  cases out with
  | inl r =>
    obtain rfl : r = .ok (first ++ World.found s.world.tables fund owners) := hfound
    exact hall owners
  | inr pause =>
    obtain ⟨row, rest, locked⟩ := pause
    obtain ⟨done, owner, e, -, he, rfl, rfl⟩ := hfound
    obtain ⟨hmem, hfund, -, -⟩ := Tables.mem_of_activeOf he
    exact ⟨⟨e, rfl, hfund, h.rooted hmem⟩, hall done⟩

theorem Sound.lockRun (h : Sound s) (hc : s.caller p = some c) {o : TransferOrder} {w' : World}
    {out : Stage.LockResult} (run : c.progress.lockRun s.world p = some (o, w', out)) :
    LocksRooted s o.fund out := by
  have hj := h.journal p c [] hc (Stage.lockRun_journal? run)
  generalize hstage : c.progress = σ at run
  cases Stage.lockRun_cases run with
  | begins hout => exact h.lockRows_rooted hj (by simp) hout
  | @goesOn row rest locked arrived hout =>
    refine h.lockRows_rooted hj ?_ hout
    intro e he
    rcases List.mem_append.mp he with he | he
    · exact h.locked p c o row rest locked hc hstage e he
    · rw [World.reread_eq h.tables hj, Option.mem_toList] at he
      obtain ⟨hmem, rfl⟩ := Tables.mem_of_entryById he
      obtain ⟨d, hid, hfund, hroot⟩ := h.row p c o e.id rest locked hc hstage
      exact ⟨(hroot.2 e hmem hid.symm).1.trans hfund, h.rooted hmem⟩

end Change

/-! ## Every state of every run -/

section Preserved

variable {s s' : System Stage} {p : Party} {c : Caller Stage} {now : Instant} {w : World} {σ : Stage}
  {answered : Option Op} {event : Event}

theorem Rooted.arrives {e : Entry} {call : Call} (h : Rooted s e) (new : s.caller p = none)
    (hids : DistinctIds s.world.fresh (s.world.used + 2)) :
    Rooted (s.arrive stages p call now) e :=
  ⟨h.1.step (.arrives new) hids, h.2⟩

/-- An entry after a move has an id that nobody used, or it was there before, the same owner's in the
same fund. Then it has no fewer units, unless the mover commits a transfer out of it. -/
theorem Sound.moved_entry (h : Sound s) (hc : s.caller p = some c) (hunfinished : ¬ c.Finished)
    (move : Stage.Move s.world p now c.progress w σ answered) (hids : DistinctIds w.fresh w.used)
    {d : Entry} (hd : d ∈ w.tables.entries) :
    ¬ Spent .entry s d.id ∨ ∃ b ∈ s.world.tables.entries, b.id = d.id ∧ b.fund = d.fund ∧
      b.owner = d.owner ∧ (b.units ≤ d.units ∨
        ∃ o source r, c.progress = .committing o source r ∧ source.id = b.id) := by
  cases h.change hc move hids with
  | same tables => exact Or.inr ⟨d, tables ▸ hd, rfl, rfl, rfl, Or.inl (Int.le_refl _)⟩
  | reset _ tables =>
    rw [tables] at hd
    cases hd
  | @founded f e stage _ _ tables =>
    have hnew := h.founding_new hc hunfinished (f := f) (e := e) (by rw [stage]; rfl)
    rw [tables, Tables.founded_entries hnew.1] at hd
    rcases List.mem_append.mp hd with hd | hd
    · exact Or.inr ⟨d, hd, rfl, rfl, rfl, Or.inl (Int.le_refl _)⟩
    · obtain rfl := List.mem_singleton.mp hd
      obtain ⟨name, total, owner, -, -, he⟩ :=
        (h.origin p c hc).founding f d (by rw [stage]; rfl)
      exact Or.inl fun hspent => hspent.2 p c hc hunfinished he.id.symm
  | @settled o source r e id stage sourceId admits unused drawn tables =>
    rw [tables, Tables.settled_entries h.tables admits
      (fun hmem => unused (h.entryIds_drawn hmem))] at hd
    rcases List.mem_append.mp hd with hd | hd
    · obtain ⟨b, hb, rfl⟩ := List.mem_map.mp hd
      refine Or.inr ⟨b, hb, by simp, by simp, by simp, ?_⟩
      by_cases hbe : b.id = e.id
      · exact Or.inr ⟨o, source, r, stage, by rw [hbe, sourceId]⟩
      · exact Or.inl (Tables.adjusted_units_ge hbe admits.positive)
    · split at hd
      · cases hd
      · obtain rfl := List.mem_singleton.mp hd
        exact Or.inl fun hspent => unused hspent.1

/-- Entries stay while nobody resets the store. -/
theorem Sound.entry_stays (h : Sound s) (hc : s.caller p = some c) (hunfinished : ¬ c.Finished)
    (move : Stage.Move s.world p now c.progress w σ answered) (hids : DistinctIds w.fresh w.used)
    (hreset : c.progress ≠ .resetting) {b : Entry} (hb : b ∈ s.world.tables.entries) :
    ∃ d ∈ w.tables.entries, d.id = b.id ∧ d.fund = b.fund ∧ d.owner = b.owner := by
  cases h.change hc move hids with
  | same tables => exact ⟨b, tables ▸ hb, rfl, rfl, rfl⟩
  | reset stage => exact absurd stage hreset
  | @founded f e stage _ _ tables =>
    have hnew := h.founding_new hc hunfinished (f := f) (e := e) (by rw [stage]; rfl)
    rw [tables, Tables.founded_entries hnew.1]
    exact ⟨b, List.mem_append_left _ hb, rfl, rfl, rfl⟩
  | @settled o source r e id stage sourceId admits unused drawn tables =>
    rw [tables, Tables.settled_entries h.tables admits
      (fun hmem => unused (h.entryIds_drawn hmem))]
    exact ⟨_, List.mem_append_left _ (List.mem_map_of_mem hb), by simp, by simp, by simp⟩

/-- No move gives the id of a rooted entry to another owner. -/
theorem Rooted.moves {e : Entry} (h : Rooted s e) (hs : Sound s) (hc : s.caller p = some c)
    (hunfinished : ¬ c.Finished) (move : Stage.Move s.world p now c.progress w σ answered)
    (hids : DistinctIds w.fresh w.used) : Rooted (s.moved p c w σ answered) e := by
  refine ⟨h.1.step (.moves hc hunfinished move) (by simpa using hids), ?_⟩
  intro d hd hid
  rw [System.moved_tables] at hd
  rcases hs.moved_entry hc hunfinished move hids hd with hnew | ⟨b, hb, hbd, hfund, howner, -⟩
  · exact absurd (hid ▸ h.1) hnew
  · rw [← hfund, ← howner]
    exact h.2 b hb (hbd.trans hid)

theorem sound_opened (fresh : Nat → Uuid) : Sound (System.opened fresh {}) := by
  refine ⟨told_opened fresh {}, ?_, ?_, Tables.wellFormed_empty, ?_, ?_, ?_, ?_, ?_⟩
  case refine_3 | refine_4 => intro e he; cases he
  all_goals intros; contradiction

theorem Sound.arrives {call : Call} (h : Sound s) (new : s.caller p = none)
    (hids : DistinctIds s.world.fresh (s.world.used + 2)) :
    Sound (s.arrive stages p call now) := by
  have hstep : s.Step (.call p call now) (s.arrive stages p call now) := .arrives new
  have hnew := Caller.newId_arriving call now hids
  have hidle : ∀ {q : Party} {d : Caller Stage},
      (s.arrive stages p call now).caller q = some d → d.progress.journal? ≠ none →
        s.caller q = some d := by
    intro q d hd hj
    rcases System.arrive_caller hd with ⟨-, rfl⟩ | ⟨-, hd⟩
    · exact absurd (Stage.start_journal? call) hj
    · exact hd
  refine ⟨h.toTold.step hstep, ?_, ?_, h.tables, ?_, ?_, ?_, ?_, ?_⟩
  · intro q d hd k
    rcases System.arrive_caller hd with ⟨-, rfl⟩ | ⟨-, hd⟩
    · exact (hnew k).2
    · exact (h.drawn q d hd k).step hstep
  · intro q r d d' hd hd' hne k heq
    rcases System.arrive_caller hd with ⟨rfl, rfl⟩ | ⟨-, hd⟩
    · rcases System.arrive_caller hd' with ⟨rfl, -⟩ | ⟨-, hd'⟩
      · exact hne rfl
      · exact (hnew k).1 (heq ▸ h.drawn r d' hd' k)
    · rcases System.arrive_caller hd' with ⟨-, rfl⟩ | ⟨-, hd'⟩
      · exact (hnew k).1 (heq ▸ h.drawn q d hd k)
      · exact h.apart q r d d' hd hd' hne k heq
  · exact fun e he => (h.entries e he).step hstep hids
  · exact fun f hf => (h.funds f hf).step hstep hids
  · intro q d o e hd hsource
    have hold : s.caller q = some d := by
      refine hidle hd ?_
      cases hstage : d.progress <;> rw [hstage] at hsource <;> cases hsource <;> simp [Stage.journal?]
    obtain ⟨hfund, howner, henough, hroot⟩ := h.source q d o e hold hsource
    exact ⟨hfund, howner, henough, hroot.arrives new hids⟩
  · intro q d o row rest locked hd hstage
    obtain ⟨e, hid, hfund, hroot⟩ :=
      h.row q d o row rest locked (hidle hd (by rw [hstage]; simp [Stage.journal?])) hstage
    exact ⟨e, hid, hfund, hroot.arrives new hids⟩
  · intro q d o row rest locked hd hstage e he
    obtain ⟨hfund, hroot⟩ :=
      h.locked q d o row rest locked (hidle hd (by rw [hstage]; simp [Stage.journal?])) hstage e he
    exact ⟨hfund, hroot.arrives new hids⟩

theorem Sound.moves_tables (h : Sound s) (hc : s.caller p = some c) (hunfinished : ¬ c.Finished)
    (change : Change s c now w σ) : w.tables.WellFormed := by
  cases change with
  | same tables => exact tables ▸ h.tables
  | reset _ tables => exact tables ▸ Tables.wellFormed_empty
  | @founded f e stage id name tables =>
    have hnew := h.founding_new hc hunfinished (f := f) (e := e) (by rw [stage]; rfl)
    obtain ⟨_, _, _, _, _, he⟩ := (h.origin p c hc).founding f e (by rw [stage]; rfl)
    exact tables ▸ h.tables.founded he.fund he.active he.nonneg hnew.1 hnew.2
  | settled stage sourceId admits unused drawn tables =>
    exact tables ▸ h.tables.settled admits fun hmem => unused (h.entryIds_drawn hmem)

/-- The id of a row that a call has just committed is spent. -/
theorem Sound.spent_own (h : Sound s) (hc : s.caller p = some c) {a : Answer} (k : RowKind)
    (hstep : s.Step event (s.moved p c w (.finished a) answered)) :
    Spent k (s.moved p c w (.finished a) answered) (c.newId k) := by
  refine ⟨(h.drawn p c hc k).step hstep, ?_⟩
  intro q d hd hunfinished
  rcases System.moved_caller hd with ⟨rfl, rfl⟩ | ⟨hq, hd⟩
  · exact absurd ⟨a, rfl⟩ hunfinished
  · exact h.apart q p d c hd hc hq k

theorem Sound.moves_spent (h : Sound s) (hc : s.caller p = some c) (hunfinished : ¬ c.Finished)
    (move : Stage.Move s.world p now c.progress w σ answered) (hids : DistinctIds w.fresh w.used) :
    (∀ e ∈ w.tables.entries, Spent .entry (s.moved p c w σ answered) e.id) ∧
    ∀ f ∈ w.tables.funds, Spent .fund (s.moved p c w σ answered) f.id := by
  have hstep : s.Step (.turn p now) (s.moved p c w σ answered) := .moves hc hunfinished move
  have hids' : DistinctIds (s.moved p c w σ answered).world.fresh
      (s.moved p c w σ answered).world.used := by simpa using hids
  have hentries : ∀ e ∈ s.world.tables.entries, Spent .entry (s.moved p c w σ answered) e.id :=
    fun e he => (h.entries e he).step hstep hids'
  have hfunds : ∀ f ∈ s.world.tables.funds, Spent .fund (s.moved p c w σ answered) f.id :=
    fun f hf => (h.funds f hf).step hstep hids'
  cases h.change hc move hids with
  | same tables => exact tables ▸ ⟨hentries, hfunds⟩
  | reset _ tables =>
    rw [tables]
    refine ⟨?_, ?_⟩
    · intro e he
      cases he
    · intro f hf
      cases hf
  | @founded f e stage id name tables =>
    have hnew := h.founding_new hc hunfinished (f := f) (e := e) (by rw [stage]; rfl)
    obtain ⟨_, _, _, _, hf, he⟩ := (h.origin p c hc).founding f e (by rw [stage]; rfl)
    rw [tables]
    constructor
    · intro d hd
      rw [Tables.founded_entries hnew.1] at hd
      rcases List.mem_append.mp hd with hd | hd
      · exact hentries d hd
      · obtain rfl := List.mem_singleton.mp hd
        exact he.id ▸ h.spent_own hc .entry hstep
    · intro g hg
      rcases List.mem_append.mp hg with hg | hg
      · exact hfunds g hg
      · obtain rfl := List.mem_singleton.mp hg
        exact hf.id ▸ h.spent_own hc .fund hstep
  | @settled o source r e id stage sourceId admits unused drawn tables =>
    rw [tables]
    constructor
    · intro d hd
      rw [Tables.settled_entries h.tables admits
        (fun hmem => unused (h.entryIds_drawn hmem))] at hd
      rcases List.mem_append.mp hd with hd | hd
      · obtain ⟨d', hd', rfl⟩ := List.mem_map.mp hd
        rw [Tables.adjusted_id]
        exact hentries d' hd'
      · split at hd
        · cases hd
        · obtain rfl := List.mem_singleton.mp hd
          refine ⟨drawn.mono System.moved_fresh (by simp), ?_⟩
          intro q d' hd' _ heq
          have hnew : d'.newId .entry = id := heq
          rcases System.moved_caller hd' with ⟨rfl, rfl⟩ | ⟨-, hd'⟩
          · exact unused (hnew ▸ h.drawn q c hc .entry)
          · exact unused (hnew ▸ h.drawn q d' hd' .entry)
    · have hsame : (s.world.tables.settled id now e r).funds = s.world.tables.funds := by
        simp only [Tables.settled, Tables.credited]
        split <;> rfl
      rw [hsame]
      exact hfunds

theorem Sound.moves (h : Sound s) (hc : s.caller p = some c) (hunfinished : ¬ c.Finished)
    (move : Stage.Move s.world p now c.progress w σ answered) (hids : DistinctIds w.fresh w.used) :
    Sound (s.moved p c w σ answered) := by
  have hstep : s.Step (.turn p now) (s.moved p c w σ answered) := .moves hc hunfinished move
  have hroot : ∀ {e : Entry}, Rooted s e → Rooted (s.moved p c w σ answered) e :=
    fun he => he.moves h hc hunfinished move hids
  obtain ⟨hentries, hfunds⟩ := h.moves_spent hc hunfinished move hids
  refine ⟨h.toTold.step hstep, ?_, ?_, ?_, ?_, ?_, ?_, ?_, ?_⟩
  · intro q d hd k
    rcases System.moved_caller hd with ⟨rfl, rfl⟩ | ⟨-, hd⟩
    · exact (h.drawn q c hc k).step hstep
    · exact (h.drawn q d hd k).step hstep
  · intro q r d d' hd hd' hne k
    rcases System.moved_caller hd with ⟨hq, rfl⟩ | ⟨-, hold⟩
    · rcases System.moved_caller hd' with ⟨hr, -⟩ | ⟨-, hold'⟩
      · exact absurd (hq.trans hr.symm) hne
      · exact h.apart p r c d' hc hold' (hq ▸ hne) k
    · rcases System.moved_caller hd' with ⟨hr, rfl⟩ | ⟨-, hold'⟩
      · exact h.apart q p d c hold hc (hr ▸ hne) k
      · exact h.apart q r d d' hold hold' hne k
  · rw [System.moved_tables]
    exact h.moves_tables hc hunfinished (h.change hc move hids)
  · rw [System.moved_tables]
    exact hentries
  · rw [System.moved_tables]
    exact hfunds
  · intro q d o e hd hsource
    rcases System.moved_caller hd with ⟨rfl, rfl⟩ | ⟨-, hd⟩
    · rcases move.source? hsource with hold | ⟨locked, run, he, howner, henough⟩
      · obtain ⟨hfund, howner, henough, he⟩ := h.source q c o e hc hold
        exact ⟨hfund, howner, henough, hroot he⟩
      · obtain ⟨hfund, he⟩ := h.lockRun hc run e he
        exact ⟨hfund, howner, henough, hroot he⟩
    · obtain ⟨hfund, howner, henough, he⟩ := h.source q d o e hd hsource
      exact ⟨hfund, howner, henough, hroot he⟩
  · intro q d o row rest locked hd hstage
    rcases System.moved_caller hd with ⟨rfl, rfl⟩ | ⟨-, hd⟩
    · simp only [Caller.moved] at hstage
      subst hstage
      obtain ⟨e, hid, hfund, he⟩ := (h.lockRun hc move.paused).1
      exact ⟨e, hid, hfund, hroot he⟩
    · obtain ⟨e, hid, hfund, he⟩ := h.row q d o row rest locked hd hstage
      exact ⟨e, hid, hfund, hroot he⟩
  · intro q d o row rest locked hd hstage e he
    rcases System.moved_caller hd with ⟨rfl, rfl⟩ | ⟨-, hd⟩
    · simp only [Caller.moved] at hstage
      subst hstage
      obtain ⟨hfund, he⟩ := (h.lockRun hc move.paused).2 e he
      exact ⟨hfund, hroot he⟩
    · obtain ⟨hfund, he⟩ := h.locked q d o row rest locked hd hstage e he
      exact ⟨hfund, hroot he⟩

theorem Sound.step (h : Sound s) (hs : s.Step event s')
    (hids : DistinctIds s'.world.fresh s'.world.used) : Sound s' := by
  cases hs with
  | ignored => exact h
  | arrives new => exact h.arrives new hids
  | moves caller unfinished move => exact h.moves caller unfinished move (by simpa using hids)

theorem sound_run {fresh : Nat → Uuid} (es : List Event)
    (hids : DistinctIds fresh ((System.opened fresh {}).run stages es).world.used) :
    Sound ((System.opened fresh {}).run stages es) :=
  System.run_induction (sound_opened fresh) (fun _ _ _ h hs hids => h.step hs hids) es hids

end Preserved

end UnitLedger.Concurrent
