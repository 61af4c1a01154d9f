import Neonfi.Wallet.AlchemyWalk

/-!
# Paging a history through Alchemy

A walk calls the adapter with the returned cursor until none is returned, and calls again where the
answer is null.  Its cursor says where it stands, so it collects every transfer exactly when no
step gives up a side that still has some of its own.
-/

namespace Neonfi.Wallet

open Lib

/-- The adapter as it is configured, and the wallet it reads. -/
structure AlchemyWallet where
  codec : CursorCodec
  stringify_ne_empty : ∀ c, codec.stringify c ≠ ""
  apiKey : Option String
  network : String → Option String
  address : String
  slug : String
  net : String
  slug_ne_solana : slug ≠ "solana"
  network_slug : network slug = some net
  service : AlchemyService

/-! ## The walk -/

/-- The cursor to call with, whether none was returned, and what was returned so far. -/
structure WalkState where
  cursor : Option String := none
  finished : Bool := false
  collected : List WalletTransfer := []

namespace AlchemyWallet

variable (wallet : AlchemyWallet)

def getTransferHistory (fails : TransferSide → Bool) (cursor : Option String) :
    Option TransferPage :=
  (alchemyProvider wallet.codec wallet.apiKey wallet.network
    fun _ _ _ => wallet.service.gateway fails).getTransferHistory.bind fun get =>
      get wallet.address wallet.slug { cursor }

/-- One call; a null answer is tried again by the next one. -/
def call (s : WalkState) (fails : TransferSide → Bool) : WalkState :=
  if s.finished then s
  else
    match wallet.getTransferHistory fails s.cursor with
    | none => s
    | some page =>
        { cursor := page.nextCursor
          finished := page.nextCursor.isNone
          collected := s.collected ++ page.transfers }

/-- A walk, call after call, with the sides whose queries fail at each. -/
def walk (calls : List (TransferSide → Bool)) : WalkState := calls.foldl wallet.call {}

end AlchemyWallet

/-! ## What the adapter makes of it -/

namespace AlchemyWallet

open AlchemyService (answers answered advance_of_answers advance_of_fails advance_of_not_live
  answered_iff)

section Call

variable (wallet : AlchemyWallet) (p : WalkProgress) (fails : TransferSide → Bool)

/-- The key that a cursor has for a side that is still queried. -/
def keyOf (side : TransferSide) : Option String :=
  if (p side).live then some (wallet.service.key side (p side).taken) else none

/-- The cursor of a walk that stands here. -/
def Encodes (cursor : Option String) : Prop :=
  (cursor = none ∧ p = fun _ => {}) ∨
    cursor = some (wallet.codec.stringify ⟨wallet.keyOf p .sent, wallet.keyOf p .received⟩)

def reply (side : TransferSide) : Option AlchemyResult :=
  if answers p fails side then some (wallet.service.pageAt side (p side).taken) else none

variable {wallet p fails} {cursor : Option String} {page : TransferPage} {w : WalletTransfer}

theorem filter_keyOf (side : TransferSide) :
    (wallet.keyOf p side).filter (· ≠ "") = wallet.keyOf p side := by
  unfold keyOf
  cases (p side).live with
  | false => rfl
  | true =>
      rw [if_pos rfl, Option.filter_some, decide_eq_true (wallet.service.key_ne_empty _ _),
        if_pos rfl]

theorem keyOf_eq_none_iff {side : TransferSide} :
    wallet.keyOf p side = none ↔ (p side).live = false := by
  unfold keyOf
  cases (p side).live with
  | false => simp
  | true => simp

theorem keys_eq_none_iff : wallet.keyOf p .sent = none ∧ wallet.keyOf p .received = none ↔
    ∀ side, (p side).live = false := by
  rw [keyOf_eq_none_iff, keyOf_eq_none_iff]
  constructor
  · rintro ⟨hsent, hreceived⟩ side
    cases side with
    | sent => exact hsent
    | received => exact hreceived
  · exact fun h => ⟨h .sent, h .received⟩

/-- The adapter queries the sides that are live, at the page where they stand. -/
theorem getTransferHistory_eq (h : wallet.Encodes p cursor) :
    wallet.getTransferHistory fails cursor =
      alchemyPage wallet.codec (wallet.reply p fails .sent) (wallet.reply p fails .received) := by
  unfold getTransferHistory alchemyProvider
  dsimp only [Option.bind_some]
  rw [if_neg wallet.slug_ne_solana, wallet.network_slug, Option.bind_some]
  rcases h with ⟨rfl, rfl⟩ | rfl
  · have hquery : ∀ side, wallet.service.gateway fails side none =
        wallet.reply (fun _ => {}) fails side := by
      intro side
      unfold reply answers AlchemyService.gateway
      cases fails side <;> rfl
    rw [Option.filter_none, Option.elim_none, Option.bind_some]
    simp only [true_or, if_true, Option.filter_none]
    rw [hquery .sent, hquery .received]
  · have hgiven : (some (wallet.codec.stringify
        ⟨wallet.keyOf p .sent, wallet.keyOf p .received⟩)).filter (· ≠ "") =
          some (wallet.codec.stringify ⟨wallet.keyOf p .sent, wallet.keyOf p .received⟩) := by
      simp [wallet.stringify_ne_empty]
    have hquery : ∀ side, (if wallet.keyOf p side ≠ none then
        wallet.service.gateway fails side ((wallet.keyOf p side).filter (· ≠ "")) else none) =
          wallet.reply p fails side := by
      intro side
      rw [filter_keyOf]
      unfold keyOf reply answers AlchemyService.gateway
      cases (p side).live with
      | false => rfl
      | true =>
          cases fails side with
          | true => rfl
          | false => simp [wallet.service.position_key]
    rw [hgiven, Option.elim_some, wallet.codec.parse_stringify, Option.bind_some]
    simp only [reduceCtorEq, false_or]
    rw [hquery .sent, hquery .received]

/-- The next key of a side, while one of the two is answered. -/
theorem pageKey_reply (hanswered : answered p fails = true) (side : TransferSide) :
    (wallet.reply p fails side).bind AlchemyResult.pageKey =
      wallet.keyOf (wallet.service.advance p fails) side := by
  unfold reply keyOf
  cases hanswers : answers p fails side with
  | true =>
      rw [advance_of_answers hanswers, if_pos rfl, Option.bind_some]
      unfold AlchemyService.pageAt
      simp only [decide_eq_true_eq]
  | false =>
      rw [if_neg Bool.false_ne_true, Option.bind_none]
      cases hlive : (p side).live with
      | false => rw [advance_of_not_live hlive, hlive, if_neg Bool.false_ne_true]
      | true =>
          have hfails : fails side = true := by
            unfold answers at hanswers
            simpa [hlive] using hanswers
          rw [advance_of_fails hlive hfails hanswered, if_neg Bool.false_ne_true]

/-- The legs that the sides have answered with, the outgoing ones first. -/
def legs (wallet : AlchemyWallet) (p : WalkProgress) (fails : TransferSide → Bool) :
    List (String × Option WalletTransfer) :=
  (wallet.reply p fails .sent).elim [] AlchemyResult.transfers ++
    (wallet.reply p fails .received).elim [] AlchemyResult.transfers

theorem mem_legs {leg : String × Option WalletTransfer} :
    leg ∈ wallet.legs p fails ↔
      ∃ side, answers p fails side = true ∧
        leg ∈ (wallet.service.pages side).getD (p side).taken [] := by
  have hside : ∀ side, leg ∈ (wallet.reply p fails side).elim [] AlchemyResult.transfers ↔
      answers p fails side = true ∧
        leg ∈ (wallet.service.pages side).getD (p side).taken [] := by
    intro side
    unfold reply
    cases answers p fails side with
    | false => simp
    | true => simp [AlchemyService.pageAt]
  unfold legs
  rw [List.mem_append, hside, hside]
  constructor
  · rintro (h | h)
    · exact ⟨.sent, h⟩
    · exact ⟨.received, h⟩
  · rintro ⟨side, h⟩
    cases side with
    | sent => exact .inl h
    | received => exact .inr h

/-- A page of the service has the leg. -/
theorem exists_page_of_mem_getD {side : TransferSide} {i : ℕ}
    {leg : String × Option WalletTransfer}
    (h : leg ∈ (wallet.service.pages side).getD i []) :
    ∃ page ∈ wallet.service.pages side, leg ∈ page := by
  rw [List.getD_eq_getElem?_getD] at h
  cases hpage : (wallet.service.pages side)[i]? with
  | none =>
      rw [hpage] at h
      cases h
  | some page =>
      rw [hpage] at h
      exact ⟨page, List.mem_of_getElem? hpage, h⟩

/-- A unique id stands for one transfer, so none is lost when a leg is left out. -/
theorem mem_firstClaims_legs :
    w ∈ (firstClaims (fun leg => some leg.1) [] (wallet.legs p fails)).filterMap Prod.snd ↔
      ∃ side, answers p fails side = true ∧ wallet.service.CarriesAt side (p side).taken w := by
  rw [List.mem_filterMap]
  constructor
  · rintro ⟨leg, hleg, hw⟩
    obtain ⟨side, hanswers, hmem⟩ := mem_legs.mp ((firstClaims_sublist _ _).subset hleg)
    exact ⟨side, hanswers, leg, hmem, hw⟩
  · rintro ⟨side, hanswers, leg, hmem, hw⟩
    have hlegs := mem_legs.mpr ⟨side, hanswers, hmem⟩
    rcases @claimed_or_exists_firstClaims _ _ _ (fun leg => some leg.1) [] leg _ leg.1 hlegs rfl
      with hclaimed | ⟨first, hfirst, hid⟩
    · cases hclaimed
    · obtain ⟨side', -, hmem'⟩ := mem_legs.mp ((firstClaims_sublist _ _).subset hfirst)
      obtain ⟨page, hpage, hon⟩ := exists_page_of_mem_getD hmem
      obtain ⟨page', hpage', hon'⟩ := exists_page_of_mem_getD hmem'
      have hsame := wallet.service.identified side' side page' page first leg hpage' hpage hon' hon
        (Option.some_inj.mp hid)
      exact ⟨first, hfirst, hsame ▸ hw⟩

theorem alchemyPage_of_not_answered (h : answered p fails = false) :
    alchemyPage wallet.codec (wallet.reply p fails .sent) (wallet.reply p fails .received) =
      none := by
  unfold answered at h
  rw [Bool.or_eq_false_iff] at h
  unfold reply
  rw [h.1, h.2]
  rfl

/-- The page of an answered call. -/
theorem alchemyPage_of_answered (h : answered p fails = true) :
    alchemyPage wallet.codec (wallet.reply p fails .sent) (wallet.reply p fails .received) =
      some
        { transfers := (firstClaims (fun leg => some leg.1) [] (wallet.legs p fails)).filterMap
            Prod.snd
          nextCursor :=
            let next := wallet.service.advance p fails
            if wallet.keyOf next .sent = none ∧ wallet.keyOf next .received = none then none
            else some (wallet.codec.stringify
              ⟨wallet.keyOf next .sent, wallet.keyOf next .received⟩) } := by
  have hsome : ((wallet.reply p fails .sent).isNone && (wallet.reply p fails .received).isNone) =
      false := by
    obtain ⟨side, hanswers⟩ := answered_iff.mp h
    have hside : (wallet.reply p fails side).isNone = false := by
      unfold reply
      rw [hanswers]
      rfl
    cases side with
    | sent => rw [hside, Bool.false_and]
    | received => rw [hside, Bool.and_false]
  unfold alchemyPage
  rw [hsome, if_neg Bool.false_ne_true]
  dsimp only
  rw [pageKey_reply h, pageKey_reply h, filter_keyOf, filter_keyOf]
  rfl

end Call

/-! ## The walk and where it stands -/

/-- What the walk has, and what its cursor says, is where it stands. -/
structure Shows (wallet : AlchemyWallet) (s : WalkState) (p : WalkProgress) : Prop where
  finished : s.finished = true ↔ ∀ side, (p side).live = false
  cursor : s.finished = false → wallet.Encodes p s.cursor
  collected : ∀ w, w ∈ s.collected ↔
    ∃ side i, i < (p side).taken ∧ wallet.service.CarriesAt side i w

section Simulation

variable {wallet : AlchemyWallet} {s : WalkState} {p : WalkProgress} {fails : TransferSide → Bool}

theorem shows_start (wallet : AlchemyWallet) : wallet.Shows {} fun _ => {} where
  finished := ⟨nofun, fun h => Bool.noConfusion (h .sent)⟩
  cursor _ := .inl ⟨rfl, rfl⟩
  collected w := by
    constructor
    · exact nofun
    · rintro ⟨_, i, hi, _⟩
      cases hi

/-- A page is taken of every side that answers. -/
theorem lt_taken_advance {side : TransferSide} {i : ℕ} :
    i < (wallet.service.advance p fails side).taken ↔
      i < (p side).taken ∨ answers p fails side = true ∧ i = (p side).taken := by
  cases hanswers : answers p fails side with
  | true =>
      rw [advance_of_answers hanswers]
      simp only [true_and]
      omega
  | false =>
      rcases AlchemyService.advance_cases wallet.service p fails side with
        heq | ⟨htrue, -⟩ | ⟨-, -, -, heq⟩
      · rw [heq]
        simp
      · rw [hanswers] at htrue
        cases htrue
      · rw [heq]
        simp

theorem exists_lt_taken_advance {w : WalletTransfer} :
    (∃ side i, i < (wallet.service.advance p fails side).taken ∧
        wallet.service.CarriesAt side i w) ↔
      (∃ side i, i < (p side).taken ∧ wallet.service.CarriesAt side i w) ∨
        ∃ side, answers p fails side = true ∧
          wallet.service.CarriesAt side (p side).taken w := by
  constructor
  · rintro ⟨side, i, hi, hw⟩
    rcases lt_taken_advance.mp hi with hold | ⟨hanswers, rfl⟩
    · exact .inl ⟨side, i, hold, hw⟩
    · exact .inr ⟨side, hanswers, hw⟩
  · rintro (⟨side, i, hi, hw⟩ | ⟨side, hanswers, hw⟩)
    · exact ⟨side, i, lt_taken_advance.mpr (.inl hi), hw⟩
    · exact ⟨side, _, lt_taken_advance.mpr (.inr ⟨hanswers, rfl⟩), hw⟩

/-- A call goes where the walk goes. -/
theorem Shows.call (h : wallet.Shows s p) :
    wallet.Shows (wallet.call s fails) (wallet.service.advance p fails) := by
  unfold AlchemyWallet.call
  cases hfinished : s.finished with
  | true =>
      rw [if_pos rfl, show wallet.service.advance p fails = p from
        funext fun side => advance_of_not_live (h.finished.mp hfinished side)]
      exact h
  | false =>
      rw [if_neg Bool.false_ne_true, getTransferHistory_eq (h.cursor hfinished)]
      cases hanswered : answered p fails with
      | false =>
          rw [alchemyPage_of_not_answered hanswered,
            AlchemyService.advance_of_not_answered hanswered]
          exact h
      | true =>
          rw [alchemyPage_of_answered hanswered]
          dsimp only
          refine ⟨?_, ?_, fun w => ?_⟩
          · dsimp only
            rw [← @keys_eq_none_iff wallet]
            split
            · exact ⟨fun _ => ‹_›, fun _ => rfl⟩
            · exact ⟨nofun, fun h => absurd h ‹_›⟩
          · dsimp only
            intro hmore
            split at hmore
            · cases hmore
            · rw [if_neg ‹_›]
              exact .inr rfl
          · dsimp only
            rw [List.mem_append, h.collected, mem_firstClaims_legs, exists_lt_taken_advance]

end Simulation

section Walk

variable {wallet : AlchemyWallet} {s : WalkState} {p : WalkProgress}
  {calls : List (TransferSide → Bool)}

theorem Shows.foldl (h : wallet.Shows s p) (calls : List (TransferSide → Bool)) :
    wallet.Shows (calls.foldl wallet.call s) (calls.foldl wallet.service.advance p) := by
  induction calls generalizing s p with
  | nil => exact h
  | cons fails calls ih => exact ih h.call

theorem shows_walk (wallet : AlchemyWallet) (calls : List (TransferSide → Bool)) :
    wallet.Shows (wallet.walk calls) (wallet.service.progress calls) :=
  (shows_start wallet).foldl calls

/-- The call is made and returns a page. -/
def returnsPage (wallet : AlchemyWallet) (s : WalkState) (fails : TransferSide → Bool) : Bool :=
  !s.finished && (wallet.getTransferHistory fails s.cursor).isSome

/-- How many calls of a walk return a page. -/
def pagesReturned (wallet : AlchemyWallet) (calls : List (TransferSide → Bool)) : ℕ :=
  (trace wallet.call {} calls).countP fun x => wallet.returnsPage x.1 x.2

theorem Shows.returnsPage (h : wallet.Shows s p) (fails : TransferSide → Bool) :
    wallet.returnsPage s fails = answered p fails := by
  unfold AlchemyWallet.returnsPage
  cases hfinished : s.finished with
  | true =>
      have hdone := h.finished.mp hfinished
      unfold answered answers
      rw [hdone, hdone]
      rfl
  | false =>
      rw [getTransferHistory_eq (h.cursor hfinished)]
      cases hanswered : answered p fails with
      | false =>
          rw [alchemyPage_of_not_answered hanswered]
          rfl
      | true =>
          rw [alchemyPage_of_answered hanswered]
          rfl

theorem Shows.countP (h : wallet.Shows s p) (calls : List (TransferSide → Bool)) :
    (trace wallet.call s calls).countP (fun x => wallet.returnsPage x.1 x.2) =
      (trace wallet.service.advance p calls).countP fun x => answered x.1 x.2 := by
  induction calls generalizing s p with
  | nil => rfl
  | cons fails calls ih =>
      rw [trace, trace, List.countP_cons, List.countP_cons, ih h.call]
      dsimp only
      rw [h.returnsPage]

/-- Enough calls that return a page finish the walk. -/
theorem pagesReturned_lt (hfinished : (wallet.walk calls).finished = false) :
    wallet.pagesReturned calls <
      (wallet.service.pages .sent).length + (wallet.service.pages .received).length := by
  have hcount : wallet.pagesReturned calls =
      (wallet.service.steps calls).countP fun x => answered x.1 x.2 :=
    (shows_start wallet).countP calls
  have hle := AlchemyService.countP_answered_le (AlchemyService.sound_start wallet.service) calls
  obtain ⟨side, hlive⟩ : ∃ side, (wallet.service.progress calls side).live = true := by
    by_contra hnone
    have hdone := (shows_walk wallet calls).finished.mpr fun side =>
      Bool.eq_false_iff.mpr (not_exists.mp hnone side)
    rw [hfinished] at hdone
    cases hdone
  have hleft := AlchemyService.totalLeft_pos
    ((AlchemyService.sound_start wallet.service).foldl calls) hlive
  have hstart : wallet.service.totalLeft (fun _ => {}) =
      (wallet.service.pages .sent).length + (wallet.service.pages .received).length := rfl
  unfold AlchemyService.steps at hcount
  omega

/-- Every outgoing and every incoming transfer of the history was returned. -/
def CollectsAll (wallet : AlchemyWallet) (calls : List (TransferSide → Bool)) : Prop :=
  ∀ side i w, wallet.service.CarriesAt side i w → w ∈ (wallet.walk calls).collected

theorem collectsAll_iff (hfinished : (wallet.walk calls).finished = true) :
    wallet.CollectsAll calls ↔
      ∀ x ∈ wallet.service.steps calls, wallet.service.Harmless x.1 x.2 := by
  have hshows := shows_walk wallet calls
  constructor
  · intro hall x hx
    obtain ⟨before, after, hsplit, hstate⟩ := exists_of_mem_trace hx
    rw [hstate]
    refine @AlchemyService.harmless_of_carried _ _ _ before after fun side i w hw => ?_
    rw [← hsplit]
    exact (hshows.collected w).mp (hall side i w hw)
  · intro hharmless side i w hw
    have hsound := AlchemyService.sound_start wallet.service
    have hwhole : AlchemyService.Whole wallet.service (wallet.service.progress calls) :=
      AlchemyService.Whole.foldl (fun _ hlive => Bool.noConfusion hlive) hsound hharmless
    exact (hshows.collected w).mpr
      (hwhole.carried (hsound.foldl calls) (hshows.finished.mp hfinished) hw)

/-- A walk finishes once as many calls as there are pages have returned one.  It has then returned
every transfer exactly when no step gave up a side that still had some of its own. -/
theorem walk_collects_iff (wallet : AlchemyWallet) (calls : List (TransferSide → Bool)) :
    ((wallet.walk calls).finished = true ∨ wallet.pagesReturned calls <
      (wallet.service.pages .sent).length + (wallet.service.pages .received).length) ∧
    ((wallet.walk calls).finished = true → (wallet.CollectsAll calls ↔
      ∀ x ∈ wallet.service.steps calls, wallet.service.Harmless x.1 x.2)) := by
  refine ⟨?_, collectsAll_iff⟩
  cases hfinished : (wallet.walk calls).finished with
  | true => exact .inl rfl
  | false => exact .inr (pagesReturned_lt hfinished)

end Walk

end AlchemyWallet

/-! ## The cursor as text -/

namespace CursorText

def escape (c : Char) : List Char := if c = '"' ∨ c = '\\' then ['\\', c] else [c]

/-- A quoted text up to its closing quote, and what follows it. -/
def unquote : (escaped : Bool) → List Char → Option (List Char × List Char)
  | _, [] => none
  | true, c :: rest => (unquote false rest).map fun r => (c :: r.1, r.2)
  | false, c :: rest =>
      if c = '"' then some ([], rest)
      else if c = '\\' then unquote true rest
      else (unquote false rest).map fun r => (c :: r.1, r.2)

theorem unquote_escape (k rest : List Char) :
    unquote false (k.flatMap escape ++ '"' :: rest) = some (k, rest) := by
  induction k with
  | nil => rfl
  | cons c k ih =>
      rw [List.flatMap_cons, List.append_assoc]
      by_cases hc : c = '"' ∨ c = '\\'
      · have hquote : ¬ '\\' = '"' := by decide
        have hescape : escape c = ['\\', c] := if_pos hc
        rw [hescape, List.cons_append, List.singleton_append, unquote, if_neg hquote, if_pos rfl,
          unquote, ih, Option.map_some]
      · have hescape : escape c = [c] := if_neg hc
        have hplain := not_or.mp hc
        rw [hescape, List.singleton_append, unquote, if_neg hplain.1, if_neg hplain.2, ih,
          Option.map_some]

def keyText (key : Option String) : List Char :=
  key.elim "null".toList fun k => '"' :: (k.toList.flatMap escape ++ ['"'])

def literal (text : String) (s : List Char) : Option (List Char) :=
  if text.toList.isPrefixOf s then some (s.drop text.toList.length) else none

/-- A key and what follows it. -/
def readKey : List Char → Option (Option String × List Char)
  | [] => none
  | c :: rest =>
      if c = '"' then (unquote false rest).map fun r => (some (String.ofList r.1), r.2)
      else (literal "null" (c :: rest)).map fun rest => (none, rest)

theorem literal_append (text : String) (rest : List Char) :
    literal text (text.toList ++ rest) = some rest := by
  simp [literal]

theorem readKey_keyText (key : Option String) (rest : List Char) :
    readKey (keyText key ++ rest) = some (key, rest) := by
  cases key with
  | none => exact congrArg (Option.map _) (literal_append "null" rest)
  | some k =>
      have htext : keyText (some k) ++ rest =
          '"' :: (k.toList.flatMap escape ++ '"' :: rest) := by
        simp [keyText]
      rw [htext, readKey, if_pos rfl, unquote_escape, Option.map_some, String.ofList_toList]

def stringify (c : AlchemyCursor) : String :=
  String.ofList ("\x7b\"f\":".toList ++ (keyText c.f ++ (",\"t\":".toList ++
    (keyText c.t ++ "\x7d".toList))))

def parse (text : String) : Option AlchemyCursor :=
  (literal "\x7b\"f\":" text.toList).bind fun rest =>
    (readKey rest).bind fun f =>
      (literal ",\"t\":" f.2).bind fun rest =>
        (readKey rest).bind fun t => if t.2 = "\x7d".toList then some ⟨f.1, t.1⟩ else none

/-- The keys of a cursor as an object of two texts. -/
def json : CursorCodec where
  stringify := stringify
  parse := parse
  parse_stringify c := by
    unfold parse stringify
    rw [String.toList_ofList, literal_append, Option.bind_some, readKey_keyText, Option.bind_some]
    dsimp only
    rw [literal_append, Option.bind_some, readKey_keyText, Option.bind_some]
    exact if_pos rfl

end CursorText

/-! ## A failed query beside an answered one -/

/-- A transfer of one ETH under its id.  Only "a" is an outgoing one. -/
def ethTransfer (id : String) : WalletTransfer where
  type := .native
  incoming := decide (id ≠ "a")
  hash := some id
  fromAddr := none
  toAddr := none
  symbol := some "ETH"
  name := none
  contractAddress := none
  amount := some 1
  usdValue := none
  gasFee := none
  timestamp := some 0

def ethLeg (id : String) : String × Option WalletTransfer := (id, some (ethTransfer id))

/-- One page of outgoing transfers and two of incoming ones. -/
def threePagesOfLegs : TransferSide → List (List (String × Option WalletTransfer))
  | .sent => [[ethLeg "a"]]
  | .received => [[ethLeg "b"], [ethLeg "c"]]

theorem eq_ethLeg {side : TransferSide} {page : List (String × Option WalletTransfer)}
    {leg : String × Option WalletTransfer} (hpage : page ∈ threePagesOfLegs side)
    (hleg : leg ∈ page) : leg = ethLeg leg.1 := by
  cases side with
  | sent =>
      rw [List.mem_singleton.mp hpage] at hleg
      rw [List.mem_singleton.mp hleg]
      rfl
  | received =>
      rcases List.mem_pair.mp hpage with rfl | rfl
      · rw [List.mem_singleton.mp hleg]
        rfl
      · rw [List.mem_singleton.mp hleg]
        rfl

def threeTransfers : AlchemyService where
  pages := threePagesOfLegs
  pages_ne_nil side := by cases side <;> exact List.cons_ne_nil _ _
  key _ i := String.ofList (List.replicate (i + 1) 'k')
  key_ne_empty _ i h := by
    have hlist := congrArg String.toList h
    rw [String.toList_ofList] at hlist
    cases hlist
  position _ key := key.toList.length - 1
  position_key _ i := by simp
  identified side side' p p' leg leg' hp hp' hleg hleg' hid := by
    rw [eq_ethLeg hp hleg, eq_ethLeg hp' hleg', hid]

def threeTransfersWallet : AlchemyWallet where
  codec := CursorText.json
  stringify_ne_empty c h := by
    have hlist := congrArg String.toList h
    unfold CursorText.json CursorText.stringify at hlist
    rw [String.toList_ofList] at hlist
    cases hlist
  apiKey := some "key"
  network slug := if slug = "eth" then some "eth-mainnet" else none
  address := "0xcc"
  slug := "eth"
  net := "eth-mainnet"
  slug_ne_solana := by decide
  network_slug := if_pos rfl
  service := threeTransfers

/-- While no query fails, two calls return all three. -/
theorem walk_collects_unfailing :
    threeTransfersWallet.CollectsAll [fun _ => false, fun _ => false] := by
  have hfinished := (threeTransfersWallet.shows_walk [fun _ => false, fun _ => false]).finished.mpr
    fun side => by cases side <;> rfl
  refine ((AlchemyWallet.walk_collects_iff threeTransfersWallet _).2 hfinished).mpr ?_
  intro x hx side _ hfails _
  obtain ⟨before, after, hsplit, -⟩ := exists_of_mem_trace hx
  have hcall : x.2 ∈ [fun _ : TransferSide => false, fun _ => false] := by
    rw [hsplit]
    exact List.mem_append_right _ List.mem_cons_self
  rcases List.mem_pair.mp hcall with hnone | hnone
  · rw [hnone] at hfails
    cases hfails
  · rw [hnone] at hfails
    cases hfails

def sentFails : TransferSide → Bool
  | .sent => true
  | .received => false

/-- The claim about every wallet and every pattern of failures. -/
def PagingLosesNothing : Prop :=
  ∀ (wallet : AlchemyWallet) (calls : List (TransferSide → Bool)),
    (wallet.walk calls).finished = true → wallet.CollectsAll calls

/-- The first call reads the incoming transfers only, and its cursor has no key for the outgoing
ones: the second call does not query them, although they would be answered. -/
theorem not_pagingLosesNothing : ¬ PagingLosesNothing := by
  intro hclaim
  have hshows := threeTransfersWallet.shows_walk [sentFails, fun _ => false]
  have hfinished := hshows.finished.mpr fun side => by cases side <;> rfl
  have hlost : threeTransfers.CarriesAt .sent 0 (ethTransfer "a") :=
    ⟨_, List.mem_cons_self, rfl⟩
  obtain ⟨side, i, hi, leg, hleg, hsame⟩ :=
    (hshows.collected _).mp (hclaim _ _ hfinished _ _ _ hlost)
  cases side with
  | sent => cases hi
  | received =>
      have htwo : i < 2 := hi
      have hid : leg = ethLeg leg.1 ∧ (leg.1 = "b" ∨ leg.1 = "c") := by
        obtain rfl | rfl : i = 0 ∨ i = 1 := by omega
        · rw [List.mem_singleton.mp hleg]
          exact ⟨rfl, .inl rfl⟩
        · rw [List.mem_singleton.mp hleg]
          exact ⟨rfl, .inr rfl⟩
      rw [hid.1] at hsame
      have hincoming := congrArg WalletTransfer.incoming (Option.some_inj.mp hsame)
      rcases hid.2 with h | h
      · rw [h] at hincoming
        exact absurd hincoming (by decide)
      · rw [h] at hincoming
        exact absurd hincoming (by decide)

end Neonfi.Wallet
