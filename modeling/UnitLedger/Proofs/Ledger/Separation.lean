import UnitLedger.Proofs.Ledger.Serial
import UnitLedger.Proofs.Ledger.Share

/-!
  UnitLedger.Proofs.Ledger.Separation — the funds of one ledger do not interfere.

  Two sequential runs are compared: the second one makes the calls of the first without the transfers in
  other funds. Call by call the rows of both look alike from the fund (`Alike`): a call that both make
  sees nothing but the share, which is the same, and a call that only the first makes leaves the share as
  it is. So nobody who asks for the fund can tell the runs from each other (`funds_separate`). One thing
  the funds do share, the keys: a key that is used in two funds is found by both, and so none may be.
-/

namespace UnitLedger.Ledger

open Concurrent Memory

/-! ## Keys -/

section Keys

variable {calls : List Call} {t : Tables} {g : Generated} {c : Call}

def KeysByFund (calls : List Call) : Prop :=
  ∀ c ∈ calls, ∀ d ∈ calls, c.key?.isSome → c.key? = d.key? → c.fund? = d.fund?

instance (calls : List Call) : Decidable (KeysByFund calls) :=
  inferInstanceAs (Decidable (∀ c ∈ calls, ∀ d ∈ calls, c.key?.isSome → c.key? = d.key? →
    c.fund? = d.fund?))

def Sourced (calls : List Call) (t : Tables) : Prop :=
  ∀ r ∈ t.transfers, ∃ q, Call.transfer q ∈ calls ∧ q.key = r.key ∧ q.fund = r.fund

theorem Sourced.after (h : Sourced calls t) (hc : c ∈ calls) :
    Sourced calls (outcome g t c).2 := by
  intro r hr
  rcases outcome_transfers hr with hr | ⟨q, rfl, hkey, hfund⟩
  · exact h r hr
  · exact ⟨q, hc, hkey, hfund⟩

/-- A key that a request uses is found with records of its fund only. -/
theorem Sourced.fund_of_key (h : Sourced calls t) (keys : KeysByFund calls) {q : TransferRequest}
    {k : Uuid} (hq : Call.transfer q ∈ calls) (hk : q.key = some k) {r : Transfer}
    (hr : r ∈ t.transfers) (hrk : r.key = some k) : r.fund = q.fund := by
  obtain ⟨q', hq', hkey, hfund⟩ := h r hr
  have hkeys : q'.key = q.key := (hkey.trans hrk).trans hk.symm
  have hsame := keys _ hq' _ hq (Option.isSome_of_eq_some (hkey.trans hrk)) hkeys
  exact hfund.symm.trans (Option.some.inj hsame)

end Keys

/-! ## Two runs -/

section Runs

variable {ρ : Uuid → Uuid} {fund : Uuid} {calls calls' : List Call} {t t' : Tables}

/-- From the fund the rows of both runs look alike. -/
structure Alike (ρ : Uuid → Uuid) (fund : Uuid) (calls calls' : List Call) (t t' : Tables) :
    Prop where
  share : t.share ρ fund = t'.share id (ρ fund)
  sourced : Sourced calls t
  sourced' : Sourced calls' t'

theorem alike_empty : Alike ρ fund calls calls' {} {} where
  share := rfl
  sourced := fun r hr => by cases hr
  sourced' := fun r hr => by cases hr

/-- What the outcome of a call is on the share. -/
theorem Sourced.share_outcome {c : Call} (sourced : Sourced calls t) (keys : KeysByFund calls)
    (apart : Apart ρ fund) (here : c.elsewhere fund = false) (hc : c ∈ calls) (g : Generated) :
    (outcome (.blank (ρ g.fund)) (t.share ρ fund) (c.rename ρ)).2.share id (ρ fund) =
      (outcome g t c).2.share ρ fund ∧
    (c.Concerns fund → (outcome (.blank (ρ g.fund)) (t.share ρ fund) (c.rename ρ)).1 =
      (outcome g t c).1.veil ρ) := by
  refine outcome_share apart here (fun q k hq hk r hr hrk => ?_) g
  subst hq
  rw [sourced.fund_of_key keys hc hk hr hrk, fund_of_here here]

variable (keys : KeysByFund calls) (keys' : KeysByFund calls') (apart : Apart ρ fund)
  (alike : Alike ρ fund calls calls' t t')

include alike

/-- A call that only the first run makes. -/
theorem Alike.skipped {c : Call} (hc : c ∈ calls) (elsewhere : c.elsewhere fund = true)
    (g : Generated) : Alike ρ fund calls calls' (outcome g t c).2 t' where
  share := (outcome_elsewhere elsewhere g).trans alike.share
  sourced := alike.sourced.after hc
  sourced' := alike.sourced'

include keys keys' apart

/-- A call that both make is answered alike. -/
theorem Alike.kept {c : Call} (hc : c ∈ calls) (hc' : c.rename ρ ∈ calls')
    (here : c.elsewhere fund = false) {g g' : Generated} (hg : c.creates = true → g'.fund = ρ g.fund) :
    Alike ρ fund calls calls' (outcome g t c).2 (outcome g' t' (c.rename ρ)).2 ∧
    (c.Concerns fund →
      (outcome g t c).1.veil ρ = (outcome g' t' (c.rename ρ)).1.veil id) := by
  have first := alike.sourced.share_outcome keys apart here hc g
  have apart' : Apart id (ρ fund) := fun _ h => h
  have second := alike.sourced'.share_outcome keys' apart' (rename_here here) hc' g'
  have hblank : outcome (.blank (ρ g.fund)) (t.share ρ fund) (c.rename ρ) =
      outcome (.blank g'.fund) (t'.share id (ρ fund)) (c.rename ρ) := by
    rw [alike.share]
    cases hcreates : c.creates with
    | true => rw [hg hcreates]
    | false => exact outcome_blank ((rename_creates c).trans hcreates) _ _
  rw [Call.rename_id, id, id, ← hblank] at second
  refine ⟨⟨first.1.symm.trans second.1, alike.sourced.after hc, alike.sourced'.after hc'⟩,
    fun hconcerns => ?_⟩
  exact (first.2 hconcerns).symm.trans (second.2 (rename_concerns hconcerns))

/-- So are the calls of two runs that begin alike, one after the other. -/
theorem Alike.run {ks ks' : List Episode} {last last' : Tables} (run : Serial t ks last)
    (run' : Serial t' ks' last') (hcalls : ∀ k ∈ ks, k.call ∈ calls)
    (hcalls' : ∀ k ∈ ks', k.call ∈ calls')
    (kept : ks'.map (fun k => (k.party, k.call)) =
      (ks.filter (!·.call.elsewhere fund)).map fun k => (k.party, k.call.rename ρ))
    (renamed : ∀ k ∈ ks, ∀ k' ∈ ks', k'.party = k.party → k.call.creates = true →
      k'.generated.fund = ρ k.generated.fund) :
    Alike ρ fund calls calls' last last' ∧ ∀ k ∈ ks, k.call.Concerns fund →
      ∃ k' ∈ ks', k'.party = k.party ∧ k.answer.veil ρ = k'.answer.veil id := by
  induction run generalizing t' ks' with
  | nil =>
    cases run' with
    | nil => exact ⟨alike, fun k hk => by cases hk⟩
    | cons rest answer => cases kept
  | @cons t last k ks rest answer ih =>
    have hmine := hcalls k List.mem_cons_self
    have hrest := fun d hd => hcalls d (List.mem_cons_of_mem k hd)
    cases helsewhere : k.call.elsewhere fund with
    | true =>
      rw [List.filter_cons_of_neg (by simp [helsewhere])] at kept
      obtain ⟨alike', hanswers⟩ := ih (alike.skipped hmine helsewhere _) run' hrest hcalls' kept
        fun d hd => renamed d (List.mem_cons_of_mem k hd)
      refine ⟨alike', List.forall_mem_cons.mpr ⟨fun hconcerns => ?_, hanswers⟩⟩
      rw [here_of_concerns hconcerns] at helsewhere
      cases helsewhere
    | false =>
      rw [List.filter_cons_of_pos (by simp [helsewhere])] at kept
      cases run' with
      | nil => cases kept
      | @cons _ _ k' ks' rest' answer' =>
        simp only [List.map_cons, List.cons.injEq, Prod.mk.injEq] at kept
        obtain ⟨⟨hparty, hcall⟩, kept⟩ := kept
        have hmine' : k.call.rename ρ ∈ calls' := hcall ▸ hcalls' k' List.mem_cons_self
        obtain ⟨alike', hanswer⟩ := alike.kept keys keys' apart hmine hmine' helsewhere
          (renamed k List.mem_cons_self k' List.mem_cons_self hparty)
        rw [← hcall] at alike' hanswer
        obtain ⟨last_alike, hanswers⟩ := ih alike' rest' hrest
          (fun d hd => hcalls' d (List.mem_cons_of_mem k' hd)) kept
          fun d hd d' hd' => renamed d (List.mem_cons_of_mem k hd) d' (List.mem_cons_of_mem k' hd')
        refine ⟨last_alike, List.forall_mem_cons.mpr ⟨fun hconcerns => ?_, fun d hd hconcerns => ?_⟩⟩
        · exact ⟨k', List.mem_cons_self, hparty, by rw [answer, answer', hanswer hconcerns]⟩
        · obtain ⟨d', hd', h⟩ := hanswers d hd hconcerns
          exact ⟨d', List.mem_cons_of_mem k' hd', h⟩

end Runs

/-! ## Sequential runs -/

section Sequences

variable {ρ : Uuid → Uuid} {fund : Uuid} {vs vs' : List Visit}

/-- The second sequence makes the calls of the first without the transfers in other funds; the funds are
renamed. -/
def Kept (ρ : Uuid → Uuid) (fund : Uuid) (vs vs' : List Visit) : Prop :=
  vs'.map (fun v => (v.party, v.call)) =
    (vs.filter (!·.call.elsewhere fund)).map fun v => (v.party, v.call.rename ρ)

instance (vs vs' : List Visit) : Decidable (Kept ρ fund vs vs') :=
  inferInstanceAs (Decidable (_ = _))

theorem Kept.parties (kept : Kept ρ fund vs vs') (hparties : (vs.map (·.party)).Nodup) :
    (vs'.map (·.party)).Nodup := by
  have hsame : vs'.map (·.party) = (vs.filter (!·.call.elsewhere fund)).map (·.party) := by
    simpa [Function.comp_def] using congrArg (List.map Prod.fst) kept
  rw [hsame]
  exact hparties.sublist (List.filter_sublist.map _)

/-- No key is used in two funds where all transfers are in one. -/
theorem Kept.keysByFund (kept : Kept ρ fund vs vs') : KeysByFund (vs'.map (·.call)) := by
  have hfund : ∀ c ∈ vs'.map (·.call), c.key?.isSome → c.fund? = some (ρ fund) := by
    intro c hc hk
    obtain ⟨v', hv', rfl⟩ := List.mem_map.mp hc
    have hmem : (v'.party, v'.call) ∈
        (vs.filter (!·.call.elsewhere fund)).map fun v => (v.party, v.call.rename ρ) :=
      kept ▸ List.mem_map_of_mem hv'
    obtain ⟨v, hv, heq⟩ := List.mem_map.mp hmem
    have hcall : v.call.rename ρ = v'.call := congrArg Prod.snd heq
    have here : v.call.elsewhere fund = false := by simpa using (List.mem_filter.mp hv).2
    rw [← hcall] at hk ⊢
    cases hmine : v.call with
    | transfer q =>
      rw [hmine] at here
      exact congrArg (fun f => some (ρ f)) (fund_of_here here)
    | _ =>
      rw [hmine] at hk
      cases hk
  intro c hc d hd hkey hsame
  rw [hfund c hc hkey, hfund d hd (hsame ▸ hkey)]

/-- The episodes of both sequences are kept as the visits are. -/
theorem Kept.episodes (kept : Kept ρ fund vs vs') {ks ks' : List Episode}
    (hks : EpisodesOf vs ks) (hks' : EpisodesOf vs' ks') :
    ks'.map (fun k => (k.party, k.call)) =
      (ks.filter (!·.call.elsewhere fund)).map fun k => (k.party, k.call.rename ρ) := by
  have hfilter := congrArg
    (fun l => (l.filter (!·.2.elsewhere fund)).map (Prod.map id (Call.rename ρ))) hks
  simp only [List.filter_map, List.map_map] at hfilter
  exact hks'.trans (kept.trans hfilter.symm)

theorem call_mem_of_episodes {ks : List Episode} (hks : EpisodesOf vs ks) :
    ∀ k ∈ ks, k.call ∈ vs.map (·.call) := by
  intro k hk
  obtain ⟨v, hv, -, hcall⟩ := hks.visit hk
  exact hcall ▸ List.mem_map_of_mem hv

/-- Two sequential runs, of which the second makes the calls of the first without the transfers in other
funds than this one. In both, everybody who asks for the fund or creates one is answered, and answered
alike up to the ids of rows and the times; and alike are the entries and the records of the fund in the
end. The ids drawn in one run have to differ. The funds may have other ids in the second run, to which a
renaming takes those they have in the first; it takes no other id to that of the fund. -/
theorem funds_separate {fresh fresh' : Nat → Uuid}
    (hids : DistinctIds fresh (6 * vs.length)) (hids' : DistinctIds fresh' (6 * vs'.length))
    (hparties : (vs.map (·.party)).Nodup) (keys : KeysByFund (vs.map (·.call)))
    (kept : Kept ρ fund vs vs') (apart : Apart ρ fund)
    (renamed : ∀ v ∈ vs, v.call.creates = true →
      ((ledger fresh' (inSequence vs')).caller v.party).map (·.fundId) =
        ((ledger fresh (inSequence vs)).caller v.party).map fun c => ρ c.fundId) :
    (∀ v ∈ vs, v.call.Concerns fund → ∃ a a',
      (ledger fresh (inSequence vs)).answer? programs v.party = some a ∧
      (ledger fresh' (inSequence vs')).answer? programs v.party = some a' ∧
      a.veil ρ = a'.veil id) ∧
    (ledger fresh (inSequence vs)).world.tables.share ρ fund =
      (ledger fresh' (inSequence vs')).world.tables.share id (ρ fund) := by
  obtain ⟨s, hs⟩ : ∃ s, s = (System.opened fresh {}).run stages (inSequence vs) := ⟨_, rfl⟩
  obtain ⟨s', hs'⟩ : ∃ s', s' = (System.opened fresh' {}).run stages (inSequence vs') := ⟨_, rfl⟩
  have hfirst : ledger fresh (inSequence vs) = s.map Stage.status := by rw [hs, ledger_eq_stages]
  have hsecond : ledger fresh' (inSequence vs') = s'.map Stage.status := by
    rw [hs', ledger_eq_stages]
  rw [hfirst, hsecond] at renamed ⊢
  obtain ⟨ks, hks, run, htold⟩ := serial_run hids hparties hs
  obtain ⟨ks', hks', run', htold'⟩ := serial_run hids' (kept.parties hparties) hs'
  have hrenamed : ∀ k ∈ ks, ∀ k' ∈ ks', k'.party = k.party → k.call.creates = true →
      k'.generated.fund = ρ k.generated.fund := by
    intro k hk k' hk' hparty hcreates
    obtain ⟨c, hc, hcall, hid, -⟩ := htold k hk
    obtain ⟨c', hc', -, hid', -⟩ := htold' k' hk'
    obtain ⟨v, hv, hvparty, hvcall⟩ := hks.visit hk
    have hfund := renamed v hv (hvcall ▸ hcreates)
    rw [hparty] at hc'
    simp only [hvparty, System.map, hc, hc', Option.map_some, Option.some.injEq] at hfund
    rw [← hid, ← hid']
    exact hfund
  obtain ⟨alike, hanswers⟩ := alike_empty.run keys kept.keysByFund apart run run'
    (call_mem_of_episodes hks) (call_mem_of_episodes hks') (kept.episodes hks hks') hrenamed
  refine ⟨fun v hv hconcerns => ?_, alike.share⟩
  obtain ⟨k, hk, hparty, hcall⟩ := hks.episode hv
  obtain ⟨k', hk', hparty', hveil⟩ := hanswers k hk (hcall ▸ hconcerns)
  refine ⟨k.answer, k'.answer, ?_, ?_, hveil⟩
  · rw [System.answer?_map, ← hparty]
    exact (htold k hk).answer
  · rw [System.answer?_map, ← hparty, ← hparty']
    exact (htold' k' hk').answer

/-- Two funds with owners of the same names. Whoever asks for the first does not notice whether units of
the second were given away. -/
theorem twoFunds_separate :
    let hull := Uuid.ofNat 0
    let keel := Uuid.ofNat 4
    let gift (fund : Uuid) (units : Int) (key : Nat) : TransferRequest :=
      ⟨fund, "Ada", "Ben", units, some (Uuid.ofNat key)⟩
    let visit (p : Party) (c : Call) : Visit := ⟨p, c, ⟨p⟩, List.replicate 7 ⟨p⟩, by simp⟩
    let fresh' (n : Nat) := Uuid.ofNat (n + 100)
    let ρ (id : Uuid) : Uuid := ⟨id.bits + 100⟩
    let vs := [visit 0 (.createFund "Hull" 10 "Ada"), visit 1 (.createFund "Keel" 8 "Ada"),
      visit 2 (.transfer (gift keel 3 77)), visit 3 (.transfer (gift hull 4 78)),
      visit 4 (.getCapTable hull {})]
    let vs' := [visit 0 (.createFund "Hull" 10 "Ada"), visit 1 (.createFund "Keel" 8 "Ada"),
      visit 3 (.transfer (gift (ρ hull) 4 78)), visit 4 (.getCapTable (ρ hull) {})]
    (ledger Uuid.ofNat (inSequence vs)).world.tables.transfers.map (·.units) = [3, 4] ∧
    (ledger fresh' (inSequence vs')).world.tables.transfers.map (·.units) = [4] ∧
    (∀ v ∈ vs, v.call.Concerns hull → ∃ a a',
      (ledger Uuid.ofNat (inSequence vs)).answer? programs v.party = some a ∧
      (ledger fresh' (inSequence vs')).answer? programs v.party = some a' ∧
      a.veil ρ = a'.veil id) ∧
    (ledger Uuid.ofNat (inSequence vs)).world.tables.share ρ hull =
      (ledger fresh' (inSequence vs')).world.tables.share id (ρ hull) := by
  intro hull keel gift visit fresh' ρ vs vs'
  have hids : DistinctIds Uuid.ofNat (6 * vs.length) := by decide +kernel
  have hids' : DistinctIds fresh' (6 * vs'.length) := by decide +kernel
  have hparties : (vs.map (·.party)).Nodup := by decide +kernel
  have keys : KeysByFund (vs.map (·.call)) := by decide +kernel
  have kept : Kept ρ hull vs vs' := by decide +kernel
  have apart : Apart ρ hull := by
    intro other h
    have hbits : other.bits + 100 = hull.bits + 100 := congrArg Uuid.bits h
    have hsame : other.bits = hull.bits := by simpa using hbits
    cases other
    exact congrArg Uuid.mk hsame
  have renamed : ∀ v ∈ vs, v.call.creates = true →
      ((ledger fresh' (inSequence vs')).caller v.party).map (·.fundId) =
        ((ledger Uuid.ofNat (inSequence vs)).caller v.party).map fun c => ρ c.fundId := by
    decide +kernel
  exact ⟨by decide +kernel, by decide +kernel,
    funds_separate hids hids' hparties keys kept apart renamed⟩

end Sequences

end UnitLedger.Ledger
