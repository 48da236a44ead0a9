import UnitLedger.Proofs.Ledger.Reference

/-!
  UnitLedger.Proofs.Ledger.Serial — calls that come one after the other.

  In a sequential run each call has all its turns before the next one arrives. Nobody is disturbed then,
  so the rows go from outcome to outcome (`Serial`), and the answers are those of the outcomes
  (`serial_run`). Locks, journals and turns have no part in it any more.
-/

namespace UnitLedger.Ledger

open Concurrent Memory

/-- A call that has the store to itself, with the times of its turns: as many as any call takes, for
turns after the answer do nothing. -/
structure Visit where
  party : Party
  call : Call
  arrival : Instant
  turns : List Instant
  enough : 7 ≤ turns.length

def Visit.events (v : Visit) : List Event :=
  .call v.party v.call v.arrival :: v.turns.map (Event.turn v.party)

def inSequence (vs : List Visit) : List Event := vs.flatMap Visit.events

structure Episode where
  party : Party
  call : Call
  generated : Generated
  answer : Answer

def EpisodesOf (vs : List Visit) (ks : List Episode) : Prop :=
  ks.map (fun k => (k.party, k.call)) = vs.map fun v => (v.party, v.call)

inductive Serial : Tables → List Episode → Tables → Prop where
  | nil {t} : Serial t [] t
  | cons {t t' k ks} (rest : Serial (outcome k.generated t k.call).2 ks t')
      (answer : k.answer = (outcome k.generated t k.call).1) : Serial t (k :: ks) t'

def Episode.Tells (k : Episode) (s : System Stage) : Prop :=
  ∃ c, s.caller k.party = some c ∧ c.call = k.call ∧ c.fundId = k.generated.fund ∧
    c.progress = .finished k.answer

theorem Episode.Tells.answer {k : Episode} {s : System Stage} (h : k.Tells s) :
    s.answer? stages k.party = some k.answer := by
  obtain ⟨c, hc, -, -, hfinished⟩ := h
  exact System.answer?_eq_some.mpr ⟨c, hc, hfinished⟩

def Rests (s : System Stage) : Prop := ∀ p c, s.caller p = some c → c.Finished

variable {fresh : Nat → Uuid} {s : System Stage} {v : Visit} {vs : List Visit} {es : List Event}

theorem EpisodesOf.visit {ks : List Episode} (h : EpisodesOf vs ks) {k : Episode} (hk : k ∈ ks) :
    ∃ v ∈ vs, v.party = k.party ∧ v.call = k.call := by
  have hmem : (k.party, k.call) ∈ vs.map fun v => (v.party, v.call) := h ▸ List.mem_map_of_mem hk
  obtain ⟨v, hv, heq⟩ := List.mem_map.mp hmem
  exact ⟨v, hv, congrArg Prod.fst heq, congrArg Prod.snd heq⟩

theorem EpisodesOf.episode {ks : List Episode} (h : EpisodesOf vs ks) (hv : v ∈ vs) :
    ∃ k ∈ ks, k.party = v.party ∧ k.call = v.call := by
  have hmem : (v.party, v.call) ∈ ks.map fun k => (k.party, k.call) := h ▸ List.mem_map_of_mem hv
  obtain ⟨k, hk, heq⟩ := List.mem_map.mp hmem
  exact ⟨k, hk, congrArg Prod.fst heq, congrArg Prod.snd heq⟩

theorem Visit.party_of_mem {e : Event} (h : e ∈ v.events) : e.party = v.party := by
  rcases List.mem_cons.mp h with rfl | h
  · rfl
  · obtain ⟨now, -, rfl⟩ := List.mem_map.mp h
    rfl

theorem party_of_mem_inSequence {e : Event} (h : e ∈ inSequence vs) :
    ∃ v ∈ vs, e.party = v.party := by
  obtain ⟨v, hv, he⟩ := List.mem_flatMap.mp h
  exact ⟨v, hv, Visit.party_of_mem he⟩

/-- Where nobody is under way no lock is held. -/
theorem Rests.unlocked (h : Rests s) (released : Released s) : s.world.locks.held = [] := by
  refine List.eq_nil_iff_forall_not_mem.mpr fun l hl => ?_
  exact released l.holder (h l.holder) l.row l.era ⟨l, hl, rfl, rfl, List.mem_cons_self⟩

/-- A visit is answered and so an episode, and nobody is under way after it. -/
theorem visit_run {s' : System Stage} (hs : s = (System.opened fresh {}).run stages es)
    (rests : Rests s) (hids : DistinctIds fresh (s.world.used + 6)) (hnew : s.caller v.party = none)
    (hs' : s' = (System.opened fresh {}).run stages (es ++ v.events)) :
    ∃ k : Episode, k.party = v.party ∧ k.call = v.call ∧ k.Tells s' ∧ Rests s' ∧
      outcome k.generated s.world.tables k.call = (k.answer, s'.world.tables) ∧
      s'.world.used ≤ s.world.used + 6 := by
  have released : Released s := hs ▸ released_run fresh {} es
  have hfresh : s.world.fresh = fresh := by
    rw [hs, System.run_fresh]
    rfl
  have hsteps : s' = s.run stages v.events := by rw [hs', System.run_run, hs]
  rcases undisturbed_call hs hids (rests.unlocked released) hnew v.turns hs' with
    ⟨a, hans, hdone⟩ | ⟨-, hshort⟩
  · obtain ⟨g, hfund, -, houtcome, hused⟩ := hdone
    obtain ⟨c, hc, hfinished⟩ := System.answer?_eq_some.mp hans
    -- The caller is the one that has arrived.
    have harrive : s.step stages (.call v.party v.call v.arrival) =
        s.arrive stages v.party v.call v.arrival := by
      simp [System.step, hnew]
    have hcaller : (s.arrive stages v.party v.call v.arrival).caller v.party =
        some (.arriving s.world v.call v.arrival) := System.arrive_caller_self v.call
    have hkeeps := System.caller_keeps hcaller (v.turns.map (Event.turn v.party))
    rw [← harrive, ← System.run_cons, show _ :: _ = v.events from rfl, ← hsteps, hc] at hkeeps
    obtain ⟨d, hd, hcall, hid⟩ := hkeeps
    cases hd
    refine ⟨⟨v.party, v.call, g, a⟩, rfl, rfl, ⟨c, hc, hcall, ?_, hfinished⟩, ?_, houtcome.symm,
      hused⟩
    · rw [hid, hfund, ← hfresh]
      rfl
    · intro q d hd
      by_cases hq : q = v.party
      · rw [hq, hc] at hd
        cases hd
        exact ⟨a, hfinished⟩
      · rw [hsteps, System.run_caller_ne s fun e he => by
          rw [Visit.party_of_mem he]; exact Ne.symm hq] at hd
        exact rests q d hd
  · exact absurd v.enough (Nat.not_le.mpr hshort)

/-- A sequential run goes from outcome to outcome. -/
theorem serial_visits (hs : s = (System.opened fresh {}).run stages es) (rests : Rests s)
    (hids : DistinctIds fresh (s.world.used + 6 * vs.length))
    (hnew : ∀ v ∈ vs, s.caller v.party = none) (hparties : (vs.map (·.party)).Nodup)
    {last : System Stage}
    (hlast : last = (System.opened fresh {}).run stages (es ++ inSequence vs)) :
    ∃ ks, EpisodesOf vs ks ∧ Serial s.world.tables ks last.world.tables ∧
      ∀ k ∈ ks, k.Tells last := by
  induction vs generalizing s es with
  | nil =>
    rw [inSequence, List.flatMap_nil, List.append_nil, ← hs] at hlast
    subst hlast
    exact ⟨[], rfl, .nil, fun k hk => by cases hk⟩
  | cons v vs ih =>
    rw [List.map_cons, List.nodup_cons] at hparties
    obtain ⟨hv, hparties⟩ := hparties
    obtain ⟨s', hs'⟩ : ∃ s', s' = (System.opened fresh {}).run stages (es ++ v.events) := ⟨_, rfl⟩
    have hsplit : es ++ inSequence (v :: vs) = es ++ v.events ++ inSequence vs := by
      simp [inSequence]
    rw [hsplit] at hlast
    have hrest : last = s'.run stages (inSequence vs) := by rw [hlast, System.run_run, hs']
    -- The later visits are those of other parties.
    have hmine : last.caller v.party = s'.caller v.party := by
      rw [hrest]
      refine System.run_caller_ne s' fun e he => ?_
      obtain ⟨w, hw, hparty⟩ := party_of_mem_inSequence he
      rw [hparty]
      exact fun heq => hv (heq ▸ List.mem_map_of_mem hw)
    rw [List.length_cons] at hids
    obtain ⟨k, hparty, hcall, htells, rests', houtcome, hused⟩ :=
      visit_run hs rests (hids.mono (by omega)) (hnew v List.mem_cons_self) hs'
    have hnew' : ∀ w ∈ vs, s'.caller w.party = none := by
      intro w hw
      rw [hs', System.run_run, ← hs, System.run_caller_ne s fun e he => by
        rw [Visit.party_of_mem he]
        exact fun heq => hv (heq ▸ List.mem_map_of_mem hw)]
      exact hnew w (List.mem_cons_of_mem _ hw)
    obtain ⟨ks, hks, hserial, htold⟩ := ih hs' rests' (hids.mono (by omega)) hnew' hparties hlast
    refine ⟨k :: ks, ?_, ?_, ?_⟩
    · rw [EpisodesOf, List.map_cons, List.map_cons, hks, hparty, hcall]
    · refine .cons ?_ (congrArg Prod.fst houtcome).symm
      rw [houtcome]
      exact hserial
    · refine List.forall_mem_cons.mpr ⟨?_, htold⟩
      obtain ⟨c, hc, hrest⟩ := htells
      exact ⟨c, by rw [hparty, hmine, ← hparty, hc], hrest⟩

/-- So does one that begins with the empty store. -/
theorem serial_run (hids : DistinctIds fresh (6 * vs.length)) (hparties : (vs.map (·.party)).Nodup)
    (hs : s = (System.opened fresh {}).run stages (inSequence vs)) :
    ∃ ks, EpisodesOf vs ks ∧ Serial {} ks s.world.tables ∧ ∀ k ∈ ks, k.Tells s := by
  have hopened : System.opened fresh {} = (System.opened fresh {}).run stages [] := rfl
  refine serial_visits hopened ?_ ?_ ?_ hparties hs
  · intro p c hc
    cases hc
  · simpa [System.opened] using hids
  · exact fun _ _ => rfl

end UnitLedger.Ledger
