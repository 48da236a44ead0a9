import Mathlib.Data.Prod.Lex
import Mathlib.Data.String.Basic
import UnitLedger.Proofs.Memory.Constraints

/-!
  UnitLedger.Proofs.Memory.Listings — listings are a function of the rows, and their pages tile them.

  A listing is sorted by a key: funds by time and id, the entries of a fund by units and owner. In
  consistent tables no two rows of a listing have the same key (ids are unique, and so are the active
  owners of a fund). So the order of a listing is strict (`Consistent.entryListing_arranged`), and nothing
  is left of the order in which the rows are stored (`Consistent.entryListing_reordered`).

  The pages of one size at the multiples of this size, put one after the other, are the whole listing
  (`flatMap_offsets`).
-/

namespace UnitLedger

/-! ## Sorting by a key -/

section Sorting

variable {α κ : Type} {key : α → κ} {le : α → α → Bool} {rows rows' : List α}

theorem nodup_mergeSort (hkeys : (rows.map key).Nodup) : (rows.mergeSort le).Nodup :=
  (List.mergeSort_perm rows le).nodup_iff.mpr (List.Nodup.of_map key hkeys)

variable [LinearOrder κ]

theorem pairwise_mergeSort_key (hle : ∀ a b, le a b = true ↔ key a ≤ key b) (rows : List α) :
    (rows.mergeSort le).Pairwise fun a b => key a ≤ key b := by
  have hsorted : (rows.mergeSort le).Pairwise fun a b => le a b = true := by
    refine List.pairwise_mergeSort ?_ ?_ rows
    · intro a b c hab hbc
      exact (hle a c).mpr (le_trans ((hle a b).mp hab) ((hle b c).mp hbc))
    · intro a b
      rw [Bool.or_eq_true, hle, hle]
      exact le_total (key a) (key b)
  exact hsorted.imp fun hab => (hle _ _).mp hab

/-- Rows with distinct keys are sorted strictly. -/
theorem pairwise_mergeSort_lt (hle : ∀ a b, le a b = true ↔ key a ≤ key b)
    (hkeys : (rows.map key).Nodup) : (rows.mergeSort le).Pairwise fun a b => key a < key b := by
  have hkeys' : ((rows.mergeSort le).map key).Nodup :=
    ((List.mergeSort_perm rows le).map key).nodup_iff.mpr hkeys
  have hdistinct := List.pairwise_map.mp hkeys'
  exact (pairwise_mergeSort_key hle rows).imp₂ (fun _ _ hab hne => lt_of_le_of_ne hab hne) hdistinct

/-- In which order the rows come does not matter. -/
theorem mergeSort_eq_of_perm (hle : ∀ a b, le a b = true ↔ key a ≤ key b)
    (hkeys : (rows.map key).Nodup) (h : rows'.Perm rows) :
    rows'.mergeSort le = rows.mergeSort le := by
  have hkeys' : (rows'.map key).Nodup := (h.map key).nodup_iff.mpr hkeys
  have hperm : (rows'.mergeSort le).Perm (rows.mergeSort le) :=
    (List.mergeSort_perm rows' le).trans (h.trans (List.mergeSort_perm rows le).symm)
  refine List.Perm.eq_of_pairwise ?_ (pairwise_mergeSort_lt hle hkeys')
    (pairwise_mergeSort_lt hle hkeys) hperm
  intro a b _ _ hab hba
  exact absurd hba (lt_asymm hab)

end Sorting

/-! ## The orders of the listings -/

def Fund.Before (a b : Fund) : Prop :=
  b.createdAt < a.createdAt ∨ a.createdAt = b.createdAt ∧ b.id < a.id

def Entry.Before (a b : Entry) : Prop := b.units < a.units ∨ a.units = b.units ∧ a.owner < b.owner

structure Arranged {α : Type} (row : α → Prop) (before : α → α → Prop) (listing : List α) : Prop where
  once : listing.Nodup
  each : ∀ a, a ∈ listing ↔ row a
  ordered : listing.Pairwise before

def Fund.rank (f : Fund) : Intᵒᵈ ×ₗ Natᵒᵈ :=
  toLex (OrderDual.toDual f.createdAt.nanos, OrderDual.toDual f.id.bits.toNat)

def Entry.rank (e : Entry) : Intᵒᵈ ×ₗ String := toLex (OrderDual.toDual e.units, e.owner)

theorem Instant.nanos_inj {a b : Instant} : a.nanos = b.nanos ↔ a = b := by
  cases a
  cases b
  simp

theorem Fund.rank_lt {a b : Fund} : a.rank < b.rank ↔ a.Before b := by
  unfold Fund.rank Fund.Before
  rw [Prod.Lex.toLex_lt_toLex, ← Instant.nanos_inj]
  exact Iff.rfl

theorem Entry.rank_lt {a b : Entry} : a.rank < b.rank ↔ a.Before b := by
  unfold Entry.rank Entry.Before
  rw [Prod.Lex.toLex_lt_toLex]
  exact Iff.rfl

theorem Fund.rank_inj {a b : Fund} (h : a.rank = b.rank) : a.id = b.id := by
  have hbits : a.id.bits.toNat = b.id.bits.toNat := congrArg (fun r => (ofLex r).2) h
  exact congrArg Uuid.mk (BitVec.eq_of_toNat_eq hbits)

theorem Entry.rank_inj {a b : Entry} (h : a.rank = b.rank) : a.owner = b.owner :=
  congrArg (fun r => (ofLex r).2) h

namespace Memory.Tables

variable {t t' : Tables}

theorem newerFirst_iff (a b : Fund) : newerFirst a b = true ↔ a.rank ≤ b.rank := by
  unfold newerFirst Fund.rank
  rw [Prod.Lex.toLex_le_toLex, Bool.or_eq_true, Bool.and_eq_true, decide_eq_true_iff, beq_iff_eq,
    decide_eq_true_iff, ← Instant.nanos_inj]
  exact Iff.rfl

theorem largerFirst_iff (a b : Entry) : largerFirst a b = true ↔ a.rank ≤ b.rank := by
  unfold largerFirst Entry.rank
  rw [Prod.Lex.toLex_le_toLex, Bool.or_eq_true, Bool.and_eq_true, decide_eq_true_iff, beq_iff_eq,
    decide_eq_true_iff]
  exact Iff.rfl

/-! ## What is listed -/

theorem mem_fundListing {f : Fund} : f ∈ t.fundListing ↔ f ∈ t.funds := List.mem_mergeSort

theorem mem_entryListing {fund : Uuid} {e : Entry} :
    e ∈ t.entryListing fund ↔ e ∈ t.entries ∧ e.fund = fund ∧ e.isActive = true := by
  unfold entryListing
  rw [List.mem_mergeSort, List.mem_filter, Bool.and_eq_true, beq_iff_eq]

/-- The same rows, funds and entries perhaps in another order. -/
structure Reorders (t' t : Tables) : Prop where
  funds : t'.funds.Perm t.funds
  entries : t'.entries.Perm t.entries
  transfers : t'.transfers = t.transfers

namespace Consistent

variable (ok : t.Consistent)

include ok

theorem fundRanks : (t.funds.map Fund.rank).Nodup := by
  refine List.Nodup.map_on ?_ (List.Nodup.of_map _ ok.fundIds)
  intro a ha b hb hrank
  exact List.inj_on_of_nodup_map ok.fundIds ha hb (Fund.rank_inj hrank)

/-- Of the active entries of one fund no two have the same owner. -/
theorem entryRanks (fund : Uuid) :
    ((t.entries.filter fun e => e.fund == fund && e.isActive).map Entry.rank).Nodup := by
  refine List.Nodup.map_on ?_ ((List.Nodup.of_map _ ok.keyed.ids).filter _)
  intro a ha b hb hrank
  obtain ⟨ha, hkept⟩ := List.mem_filter.mp ha
  obtain ⟨hb, hkept'⟩ := List.mem_filter.mp hb
  rw [Bool.and_eq_true, beq_iff_eq] at hkept hkept'
  have hfund : a.fund = b.fund := hkept.1.trans hkept'.1.symm
  exact ok.keyed.holders a ha b hb hkept.2 hkept'.2 hfund (Entry.rank_inj hrank)

theorem fundListing_arranged : Arranged (· ∈ t.funds) Fund.Before t.fundListing where
  once := nodup_mergeSort ok.fundRanks
  each _ := mem_fundListing
  ordered := (pairwise_mergeSort_lt newerFirst_iff ok.fundRanks).imp Fund.rank_lt.mp

theorem entryListing_arranged (fund : Uuid) :
    Arranged (fun e => e ∈ t.entries ∧ e.fund = fund ∧ e.isActive = true) Entry.Before
      (t.entryListing fund) where
  once := nodup_mergeSort (ok.entryRanks fund)
  each _ := mem_entryListing
  ordered := (pairwise_mergeSort_lt largerFirst_iff (ok.entryRanks fund)).imp Entry.rank_lt.mp

theorem fundListing_reordered (h : t'.Reorders t) : t'.fundListing = t.fundListing :=
  mergeSort_eq_of_perm newerFirst_iff ok.fundRanks h.funds

theorem entryListing_reordered (h : t'.Reorders t) (fund : Uuid) :
    t'.entryListing fund = t.entryListing fund :=
  mergeSort_eq_of_perm largerFirst_iff (ok.entryRanks fund) (h.entries.filter _)

end Consistent

theorem Reorders.transferListing (h : t'.Reorders t) (fund : Uuid) :
    t'.transferListing fund = t.transferListing fund := by
  unfold Tables.transferListing
  rw [h.transfers]

end Memory.Tables

/-! ## Pages -/

section Pages

variable {α ε : Type} {k : Nat}

def Page.cut (limit offset : Nat) (listing : List α) : Page α :=
  ⟨(listing.drop offset).take limit, listing.length, ⟨limit, offset⟩⟩

theorem Page.ofList_natCast (limit offset : Nat) (listing : List α) :
    Page.ofList listing ⟨limit, offset⟩ = Page.cut limit offset listing := by
  simp [Page.ofList, Page.cut, Window.slice, Window.rows]

/-- Every request for a list is brought into range: without a limit above zero the limit is 100, a
greater one than 1000 is 1000, and without an offset above zero the list is shown from its start. -/
theorem ListParams.window_inRange (params : ListParams) :
    ∃ limit offset : Nat, params.window = ⟨limit, offset⟩ ∧ 1 ≤ limit ∧ limit ≤ 1000 ∧
      (limit : Int) = params.limit.elim 100 (fun n => if 0 < n then min n 1000 else 100) ∧
      (offset : Int) = max (params.offset.getD 0) 0 := by
  have hwindow : params.window.limit =
      params.limit.elim 100 (fun n => if 0 < n then min n 1000 else 100) := by
    unfold ListParams.window
    cases params.limit <;> rfl
  have hlimit : 1 ≤ params.window.limit ∧ params.window.limit ≤ 1000 := by
    rw [hwindow]
    cases params.limit with
    | none => decide
    | some n =>
      show 1 ≤ (if 0 < n then min n 1000 else 100) ∧ (if 0 < n then min n 1000 else 100) ≤ 1000
      split <;> omega
  have hoffset : 0 ≤ params.window.offset := le_max_right _ _
  have hnat : (params.window.limit.toNat : Int) = params.window.limit :=
    Int.toNat_of_nonneg (by omega)
  refine ⟨params.window.limit.toNat, params.window.offset.toNat, ?_, by omega, by omega,
    hnat.trans hwindow, Int.toNat_of_nonneg hoffset⟩
  rw [Int.toNat_of_nonneg hoffset, hnat]

/-- A request in range is not changed. -/
theorem ListParams.window_of_inRange (hmin : 1 ≤ k) (hmax : k ≤ 1000) (offset : Nat) :
    ListParams.window ⟨some k, some offset⟩ = ⟨k, offset⟩ := by
  have hlimit : (if 0 < (k : Int) then min (k : Int) 1000 else 100) = k := by
    rw [if_pos (by omega)]
    omega
  have hoffset : max (offset : Int) 0 = offset := by omega
  show Window.mk _ _ = _
  exact congr (congrArg Window.mk hlimit) hoffset

def offsets (k total : Nat) : List Nat := List.range' 0 ((total + k - 1) / k) k

theorem mem_offsets (hk : 1 ≤ k) {total offset : Nat} :
    offset ∈ offsets k total ↔ k ∣ offset ∧ offset < total := by
  have hbelow : ∀ i, i < (total + k - 1) / k ↔ k * i < total := by
    intro i
    rw [← Nat.succ_le_iff, Nat.le_div_iff_mul_le hk, Nat.succ_mul, Nat.mul_comm i k]
    omega
  unfold offsets
  rw [List.mem_range']
  constructor
  · rintro ⟨i, hi, rfl⟩
    rw [Nat.zero_add]
    exact ⟨Nat.dvd_mul_right k i, (hbelow i).mp hi⟩
  · rintro ⟨⟨i, rfl⟩, hlt⟩
    exact ⟨i, (hbelow i).mpr hlt, (Nat.zero_add _).symm⟩

/-- The first `n` pages are the first `k * n` rows. -/
theorem flatMap_range' (l : List α) (n : Nat) :
    (List.range' 0 n k).flatMap (fun offset => (l.drop offset).take k) = l.take (k * n) := by
  induction n with
  | zero => simp
  | succ n ih =>
    rw [List.range'_concat, List.flatMap_append, ih, List.flatMap_singleton, Nat.zero_add,
      Nat.mul_succ, List.take_add]

theorem flatMap_offsets (hk : 1 ≤ k) (l : List α) :
    (offsets k l.length).flatMap (fun offset => (l.drop offset).take k) = l := by
  have hceil := Nat.lt_mul_div_succ (l.length + k - 1) hk
  rw [Nat.mul_succ] at hceil
  unfold offsets
  rw [flatMap_range']
  exact List.take_of_length_le (by omega)

/-- Every window is answered by a page that tells the length of the listing, and the pages of `k` rows
at the multiples of `k` below this length are together the listing. -/
def Tiles (k : Nat) (ask : Window → Except ε (Page α)) (listing : List α) : Prop :=
  ∃ page : Nat → Page α,
    (∀ offset : Nat, ask ⟨k, offset⟩ = .ok (page offset) ∧ (page offset).total = listing.length) ∧
      (offsets k listing.length).flatMap (fun offset => (page offset).items) = listing

theorem tiles_ofList (hk : 1 ≤ k) (listing : List α) :
    Tiles k (fun window => (.ok (.ofList listing window) : Except ε (Page α))) listing := by
  refine ⟨fun offset => .cut k offset listing, fun offset => ⟨?_, rfl⟩, flatMap_offsets hk listing⟩
  exact congrArg Except.ok (Page.ofList_natCast k offset listing)

end Pages

end UnitLedger
