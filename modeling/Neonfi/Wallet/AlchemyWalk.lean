import Neonfi.Lib.Walk
import Neonfi.Wallet.LoadMore

/-!
# Walking a history through Alchemy

Alchemy answers one side of a transfer per query, so `getTransferHistory` packs two page keys in its
cursor.  A missing key stands for a side that has no more pages, and also for one whose query has
failed.  Here is where that leaves a walk: a side that fails while the other one answers is given
up.  A query that throws fails the whole call, as two failed queries do.
-/

namespace Neonfi.Wallet

open Lib

/-! ## The service -/

def TransferSide.other : TransferSide → TransferSide
  | sent => received
  | received => sent

theorem TransferSide.eq_or_eq_other (side other : TransferSide) :
    other = side ∨ other = side.other := by
  cases side <;> cases other <;> simp [TransferSide.other]

/-- The history of a wallet as the service pages it.  The service reads its own page keys, and a
unique id stands for one transfer. -/
structure AlchemyService where
  pages : TransferSide → List (List (String × Option WalletTransfer))
  pages_ne_nil : ∀ side, pages side ≠ []
  key : TransferSide → ℕ → String
  key_ne_empty : ∀ side i, key side i ≠ ""
  position : TransferSide → String → ℕ
  position_key : ∀ side i, position side (key side i) = i
  identified : ∀ side side' p p' leg leg', p ∈ pages side → p' ∈ pages side' → leg ∈ p →
    leg' ∈ p' → leg.1 = leg'.1 → leg = leg'

namespace AlchemyService

variable (service : AlchemyService)

def pageAt (side : TransferSide) (i : ℕ) : AlchemyResult where
  transfers := (service.pages side).getD i []
  pageKey := if i + 1 < (service.pages side).length then some (service.key side (i + 1)) else none

/-- What a query is answered while the queries of some sides fail. -/
def gateway (fails : TransferSide → Bool) (side : TransferSide) (pageKey : Option String) :
    Option AlchemyResult :=
  if fails side then none else some (service.pageAt side (pageKey.elim 0 (service.position side)))

/-- A page of the history has the transfer. -/
def CarriesAt (side : TransferSide) (i : ℕ) (w : WalletTransfer) : Prop :=
  ∃ leg ∈ (service.pages side).getD i [], leg.2 = some w

/-- The transfers of a side from a page on are also on its earlier pages or on the other side. -/
def Covered (side : TransferSide) (i : ℕ) : Prop :=
  ∀ w j, i ≤ j → service.CarriesAt side j w →
    (∃ k < i, service.CarriesAt side k w) ∨ ∃ k, service.CarriesAt side.other k w

end AlchemyService

/-! ## Where a walk stands -/

/-- The pages taken of a side, and whether it is still queried. -/
structure SideProgress where
  taken : ℕ := 0
  live : Bool := true

abbrev WalkProgress := TransferSide → SideProgress

namespace AlchemyService

variable (service : AlchemyService)

/-- The side is queried and its query is answered. -/
def answers (p : WalkProgress) (fails : TransferSide → Bool) (side : TransferSide) : Bool :=
  (p side).live && !fails side

def answered (p : WalkProgress) (fails : TransferSide → Bool) : Bool :=
  answers p fails .sent || answers p fails .received

/-- An answered side advances.  A side that fails while the other one answers is given up. -/
def advance (p : WalkProgress) (fails : TransferSide → Bool) : WalkProgress := fun side =>
  if answered p fails && (p side).live then
    if fails side then { p side with live := false }
    else ⟨(p side).taken + 1, decide ((p side).taken + 1 < (service.pages side).length)⟩
  else p side

/-- A side that is given up leaves nothing behind that is not elsewhere. -/
def Harmless (p : WalkProgress) (fails : TransferSide → Bool) : Prop :=
  ∀ side, (p side).live = true → fails side = true → answers p fails side.other = true →
    service.Covered side (p side).taken

def progress (calls : List (TransferSide → Bool)) : WalkProgress :=
  calls.foldl service.advance fun _ => {}

/-- The steps of a walk: where it stands, and the sides that fail then. -/
def steps (calls : List (TransferSide → Bool)) : List (WalkProgress × (TransferSide → Bool)) :=
  trace service.advance (fun _ => {}) calls

end AlchemyService

/-! ## What a step does -/

namespace AlchemyService

section Advance

variable {service : AlchemyService} {p : WalkProgress} {fails : TransferSide → Bool}
  {calls : List (TransferSide → Bool)} {side : TransferSide}

theorem answered_iff : answered p fails = true ↔ ∃ side, answers p fails side = true := by
  unfold answered
  rw [Bool.or_eq_true]
  constructor
  · rintro (h | h)
    · exact ⟨.sent, h⟩
    · exact ⟨.received, h⟩
  · rintro ⟨side, h⟩
    cases side with
    | sent => exact .inl h
    | received => exact .inr h

theorem live_of_answers (h : answers p fails side = true) : (p side).live = true := by
  unfold answers at h
  exact (Bool.and_eq_true _ _ ▸ h).1

theorem not_answers_of_fails (h : fails side = true) : answers p fails side = false := by
  unfold answers
  rw [h, Bool.not_true, Bool.and_false]

theorem advance_of_not_answered (h : answered p fails = false) :
    service.advance p fails = p := by
  funext side
  unfold advance
  rw [h, Bool.false_and, if_neg Bool.false_ne_true]

theorem advance_of_not_live (h : (p side).live = false) :
    service.advance p fails side = p side := by
  unfold advance
  rw [h, Bool.and_false, if_neg Bool.false_ne_true]

theorem advance_of_answers (h : answers p fails side = true) : service.advance p fails side =
    ⟨(p side).taken + 1, decide ((p side).taken + 1 < (service.pages side).length)⟩ := by
  have hanswered := answered_iff.mpr ⟨side, h⟩
  unfold answers at h
  rw [Bool.and_eq_true, Bool.not_eq_true'] at h
  unfold advance
  rw [hanswered, h.1, Bool.true_and, if_pos rfl, h.2, if_neg Bool.false_ne_true]

theorem advance_of_fails (hlive : (p side).live = true) (hfails : fails side = true)
    (hother : answered p fails = true) :
    service.advance p fails side = { p side with live := false } := by
  unfold advance
  rw [hother, hlive, Bool.true_and, if_pos rfl, if_pos hfails]

/-- What a step does to a side. -/
theorem advance_cases (service : AlchemyService) (p : WalkProgress) (fails : TransferSide → Bool)
    (side : TransferSide) :
    service.advance p fails side = p side ∨
      (answers p fails side = true ∧ service.advance p fails side =
        ⟨(p side).taken + 1, decide ((p side).taken + 1 < (service.pages side).length)⟩) ∨
      ((p side).live = true ∧ fails side = true ∧ answers p fails side.other = true ∧
        service.advance p fails side = { p side with live := false }) := by
  cases hlive : (p side).live with
  | false => exact .inl (advance_of_not_live hlive)
  | true =>
      cases hfails : fails side with
      | false =>
          have hanswers : answers p fails side = true := by
            unfold answers
            rw [hlive, hfails]
            rfl
          exact .inr (.inl ⟨hanswers, advance_of_answers hanswers⟩)
      | true =>
          cases hanswered : answered p fails with
          | false => exact .inl (by rw [advance_of_not_answered hanswered])
          | true =>
              obtain ⟨found, hfound⟩ := answered_iff.mp hanswered
              have hother : found = side.other := by
                rcases TransferSide.eq_or_eq_other side found with rfl | hother
                · rw [not_answers_of_fails hfails] at hfound
                  cases hfound
                · exact hother
              exact .inr (.inr ⟨rfl, rfl, hother ▸ hfound, advance_of_fails hlive hfails hanswered⟩)

/-- A side that is no longer queried stays as it is. -/
theorem foldl_advance_of_not_live (h : (p side).live = false) :
    calls.foldl service.advance p side = p side := by
  induction calls generalizing p with
  | nil => rfl
  | cons fails calls ih =>
      have hstep : service.advance p fails side = p side := advance_of_not_live h
      rw [List.foldl_cons, ih (by rw [hstep]; exact h), hstep]

/-! ## What holds along a walk -/

/-- A queried side has a page left, and at most one side was given up. -/
structure Sound (service : AlchemyService) (p : WalkProgress) : Prop where
  taken_le : ∀ side, (p side).taken ≤ (service.pages side).length
  taken_lt : ∀ side, (p side).live = true → (p side).taken < (service.pages side).length
  one_whole : ∃ side, (p side).live = true ∨ (p side).taken = (service.pages side).length

theorem sound_start (service : AlchemyService) : Sound service fun _ => {} where
  taken_le _ := Nat.zero_le _
  taken_lt side _ := List.length_pos_iff.mpr (service.pages_ne_nil side)
  one_whole := ⟨.sent, .inl rfl⟩

theorem Sound.advance (h : Sound service p) (fails : TransferSide → Bool) :
    Sound service (service.advance p fails) where
  taken_le side := by
    rcases advance_cases service p fails side with heq | ⟨hanswers, heq⟩ | ⟨-, -, -, heq⟩
    · rw [heq]
      exact h.taken_le side
    · rw [heq]
      exact h.taken_lt side (live_of_answers hanswers)
    · rw [heq]
      exact h.taken_le side
  taken_lt side hlive := by
    rcases advance_cases service p fails side with heq | ⟨-, heq⟩ | ⟨-, -, -, heq⟩
    · rw [heq] at hlive ⊢
      exact h.taken_lt side hlive
    · rw [heq] at hlive ⊢
      exact of_decide_eq_true hlive
    · rw [heq] at hlive
      cases hlive
  one_whole := by
    cases hanswered : answered p fails with
    | false =>
        rw [advance_of_not_answered hanswered]
        exact h.one_whole
    | true =>
        -- The side that answers goes on or has all its pages.
        obtain ⟨side, hanswers⟩ := answered_iff.mp hanswered
        refine ⟨side, ?_⟩
        have hlt := h.taken_lt side (live_of_answers hanswers)
        rw [advance_of_answers hanswers]
        by_cases hmore : (p side).taken + 1 < (service.pages side).length
        · exact .inl (decide_eq_true hmore)
        · right
          dsimp only
          omega

theorem Sound.foldl (h : Sound service p) (calls : List (TransferSide → Bool)) :
    Sound service (calls.foldl service.advance p) := by
  induction calls generalizing p with
  | nil => exact h
  | cons fails calls ih => exact ih (h.advance fails)

/-- Nothing is missing of the sides that are no longer queried. -/
def Whole (service : AlchemyService) (p : WalkProgress) : Prop :=
  ∀ side, (p side).live = false → service.Covered side (p side).taken

theorem CarriesAt.lt_length {w : WalletTransfer} {i : ℕ} (h : service.CarriesAt side i w) :
    i < (service.pages side).length := by
  obtain ⟨leg, hleg, -⟩ := h
  by_contra hi
  rw [List.getD_eq_getElem?_getD, List.getElem?_eq_none (not_lt.mp hi)] at hleg
  cases hleg

theorem covered_length (side : TransferSide) :
    service.Covered side (service.pages side).length := by
  intro w j hj hcarries
  exact absurd hcarries.lt_length (not_lt.mpr hj)

theorem Whole.advance (h : Whole service p) (hsound : Sound service p)
    (hharmless : service.Harmless p fails) : Whole service (service.advance p fails) := by
  intro side hlive
  rcases advance_cases service p fails side with heq | ⟨hanswers, heq⟩ | ⟨hp, hfails, hother, heq⟩
  · rw [heq] at hlive ⊢
    exact h side hlive
  · rw [heq] at hlive ⊢
    have hlt := hsound.taken_lt side (live_of_answers hanswers)
    have hlast : (p side).taken + 1 = (service.pages side).length := by
      have hnot := of_decide_eq_false hlive
      omega
    rw [hlast]
    exact covered_length side
  · rw [heq]
    exact hharmless side hp hfails hother

theorem Whole.foldl (h : Whole service p) (hsound : Sound service p)
    (hharmless : ∀ x ∈ trace service.advance p calls, service.Harmless x.1 x.2) :
    Whole service (calls.foldl service.advance p) := by
  induction calls generalizing p with
  | nil => exact h
  | cons fails calls ih =>
      have hfirst := hharmless (p, fails) List.mem_cons_self
      exact ih (h.advance hsound hfirst) (hsound.advance fails)
        fun x hx => hharmless x (List.mem_cons_of_mem _ hx)

/-- Once no side is queried, a walk without a harmful step has every transfer. -/
theorem Whole.carried (h : Whole service p) (hsound : Sound service p)
    (hdone : ∀ side, (p side).live = false) {w : WalletTransfer} {i : ℕ}
    (hw : service.CarriesAt side i w) :
    ∃ side i, i < (p side).taken ∧ service.CarriesAt side i w := by
  by_cases hi : i < (p side).taken
  · exact ⟨side, i, hi, hw⟩
  rcases h side (hdone side) w i (not_lt.mp hi) hw with ⟨k, hk, hcarries⟩ | ⟨k, hcarries⟩
  · exact ⟨side, k, hk, hcarries⟩
  · by_cases hk : k < (p side.other).taken
    · exact ⟨side.other, k, hk, hcarries⟩
    · -- One of the two sides is whole.
      obtain ⟨whole, hwhole⟩ := hsound.one_whole
      rw [hdone whole, Bool.false_eq_true, false_or] at hwhole
      rcases TransferSide.eq_or_eq_other side whole with rfl | rfl
      · have hlt := hw.lt_length
        omega
      · have hlt := hcarries.lt_length
        omega

/-- A step that gives up what is nowhere else leaves the walk without it. -/
theorem harmless_of_carried {before after : List (TransferSide → Bool)}
    (hall : ∀ side i w, service.CarriesAt side i w → ∃ side i,
      i < ((before ++ fails :: after).foldl service.advance p side).taken ∧
        service.CarriesAt side i w) :
    service.Harmless (before.foldl service.advance p) fails := by
  intro side hlive hfails hother w j _ hcarries
  obtain ⟨found, i, hi, hfound⟩ := hall side j w hcarries
  rcases TransferSide.eq_or_eq_other side found with rfl | rfl
  · left
    have hstep := @advance_of_fails service _ _ _ hlive hfails (answered_iff.mpr ⟨_, hother⟩)
    rw [List.foldl_append, List.foldl_cons, foldl_advance_of_not_live (by rw [hstep]), hstep] at hi
    exact ⟨i, hi, hfound⟩
  · exact .inr ⟨i, hfound⟩

/-! ## How many calls it takes -/

/-- The pages that a side may still be asked for. -/
def pagesLeft (service : AlchemyService) (p : WalkProgress) (side : TransferSide) : ℕ :=
  if (p side).live then (service.pages side).length - (p side).taken else 0

theorem pagesLeft_advance_le (hsound : Sound service p) (side : TransferSide) :
    pagesLeft service (service.advance p fails) side +
      (if answers p fails side then 1 else 0) ≤ pagesLeft service p side := by
  have hlt := hsound.taken_lt side
  unfold pagesLeft
  cases hanswers : answers p fails side with
  | true =>
      have hlive : (p side).live = true := live_of_answers hanswers
      have hpages := hlt hlive
      rw [advance_of_answers hanswers, hlive, if_pos rfl, if_pos rfl]
      dsimp only
      split <;> omega
  | false =>
      rcases advance_cases service p fails side with heq | ⟨htrue, -⟩ | ⟨-, -, -, heq⟩
      · rw [heq, if_neg Bool.false_ne_true, add_zero]
      · rw [hanswers] at htrue
        cases htrue
      · rw [heq, if_neg Bool.false_ne_true, if_neg Bool.false_ne_true]
        exact Nat.zero_le _

def totalLeft (service : AlchemyService) (p : WalkProgress) : ℕ :=
  pagesLeft service p .sent + pagesLeft service p .received

/-- An answered step takes a page. -/
theorem totalLeft_advance_le (hsound : Sound service p) :
    totalLeft service (service.advance p fails) + (if answered p fails then 1 else 0) ≤
      totalLeft service p := by
  have hsent := @pagesLeft_advance_le _ _ fails hsound .sent
  have hreceived := @pagesLeft_advance_le _ _ fails hsound .received
  unfold totalLeft
  cases hanswered : answered p fails with
  | false =>
      rw [if_neg Bool.false_ne_true]
      omega
  | true =>
      unfold answered at hanswered
      rw [if_pos rfl]
      rcases Bool.or_eq_true _ _ ▸ hanswered with h | h
      · rw [h, if_pos rfl] at hsent
        omega
      · rw [h, if_pos rfl] at hreceived
        omega

theorem countP_answered_le (hsound : Sound service p) (calls : List (TransferSide → Bool)) :
    (trace service.advance p calls).countP (fun x => answered x.1 x.2) +
      totalLeft service (calls.foldl service.advance p) ≤ totalLeft service p := by
  induction calls generalizing p with
  | nil => exact le_of_eq (Nat.zero_add _)
  | cons fails calls ih =>
      have hfirst := @totalLeft_advance_le _ _ fails hsound
      have hrest := ih (hsound.advance fails)
      rw [trace, List.countP_cons, List.foldl_cons]
      dsimp only
      omega

/-- As long as a side is queried, pages are left. -/
theorem totalLeft_pos (hsound : Sound service p) (hlive : (p side).live = true) :
    0 < totalLeft service p := by
  have hpages : 0 < pagesLeft service p side := by
    unfold pagesLeft
    rw [hlive, if_pos rfl]
    have hlt := hsound.taken_lt side hlive
    omega
  unfold totalLeft
  cases side <;> omega

end Advance

end AlchemyService

end Neonfi.Wallet
