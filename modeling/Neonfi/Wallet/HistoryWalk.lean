import Neonfi.Wallet.LoadMore

/-!
# The walk through a wallet's history

The pages of one provider's history, and the walk that repeated loads take through them.  A load
from the cursor of a page is sound exactly when the issuer is the first provider the chain asks
and answers; a run of such loads requests the pages one after the other and nothing else.
-/

namespace Neonfi.Wallet

open Lib

/-- The history of a wallet as one provider cuts it into pages, newest first, with the cursor
it issues for each page. -/
structure IssuedHistory where
  provider : String
  pages : List (List WalletTransfer)
  cursor : ℕ → String
  cursor_ne : ∀ i, cursor i ≠ ""
  cursor_inj : ∀ i < pages.length, ∀ j < pages.length, cursor i = cursor j → i = j

namespace IssuedHistory

variable (h : IssuedHistory)

/-- The cursor that comes with a page. -/
def nextCursor (i : ℕ) : Option String :=
  if i + 1 < h.pages.length then some (h.cursor (i + 1)) else none

/-- The page under this number, with the cursor of the next one. -/
def IsPage (i : ℕ) (page : TransferPage) : Prop :=
  h.pages[i]? = some page.transfers ∧ page.nextCursor.filter (· ≠ "") = h.nextCursor i

theorem nextCursor_eq_some {i : ℕ} {cursor : String} (hnext : h.nextCursor i = some cursor) :
    i + 1 < h.pages.length ∧ cursor = h.cursor (i + 1) := by
  unfold nextCursor at hnext
  split at hnext
  · next hlt => exact ⟨hlt, (Option.some_inj.mp hnext).symm⟩
  · cases hnext

end IssuedHistory

section Fallback

variable {address slug : String} {opts : PageOpts} {providers : List WalletDataProvider}

/-- If the first provider with a history answers, nobody else is asked. -/
theorem fetchTransferPage_of_first {p : WalletDataProvider}
    {get : String → PageOpts → Option TransferPage} {page : TransferPage}
    (hfirst : providers.find? (fun q => (q.history slug).isSome) = some p)
    (hget : p.history slug = some get) (hpage : get address opts = some page) :
    fetchTransferPage address slug opts providers = some page ∧
      askedProviders address slug opts providers = [p.name] := by
  induction providers with
  | nil => cases hfirst
  | cons q providers ih =>
      unfold fetchTransferPage askedProviders
      cases hq : q.history slug with
      | none =>
          rw [List.find?_cons_of_neg (by simp [hq])] at hfirst
          exact ih hfirst
      | some get' =>
          rw [List.find?_cons_of_pos (by simp [hq])] at hfirst
          cases hfirst
          rw [hget] at hq
          cases hq
          simp [hpage]

/-- If nobody is asked, no page comes. -/
theorem fetchTransferPage_of_nil (h : askedProviders address slug opts providers = []) :
    fetchTransferPage address slug opts providers = none := by
  induction providers with
  | nil => rfl
  | cons q providers ih =>
      unfold askedProviders at h
      unfold fetchTransferPage
      cases hq : q.history slug with
      | none =>
          rw [hq] at h
          exact ih h
      | some get =>
          rw [hq] at h
          cases h

theorem askedProviders_subset :
    ∀ name ∈ askedProviders address slug opts providers,
      name ∈ providers.map WalletDataProvider.name := by
  induction providers with
  | nil => exact fun _ hmem => hmem
  | cons q providers ih =>
      intro name hmem
      rw [List.map_cons, List.mem_cons]
      unfold askedProviders at hmem
      cases hq : q.history slug with
      | none =>
          rw [hq] at hmem
          exact .inr (ih name hmem)
      | some get =>
          rw [hq] at hmem
          rcases List.mem_cons.mp hmem with rfl | hrest
          · exact .inl rfl
          · split at hrest
            · exact .inr (ih name hrest)
            · cases hrest

theorem history_of_not_asked (h : askedProviders address slug opts providers = []) :
    ∀ p ∈ providers, p.history slug = none := by
  induction providers with
  | nil => exact fun _ hmem => absurd hmem List.not_mem_nil
  | cons q providers ih =>
      unfold askedProviders at h
      cases hq : q.history slug with
      | none =>
          rw [hq] at h
          intro p hmem
          rcases List.mem_cons.mp hmem with rfl | hrest
          · exact hq
          · exact ih h p hrest
      | some get =>
          rw [hq] at h
          cases h

/-- The loop asks the first provider that has a history, and goes on if it fails. -/
theorem askedProviders_cases :
    askedProviders address slug opts providers = [] ∨
      ∃ p get before behind, providers = before ++ p :: behind ∧
        providers.find? (fun q => (q.history slug).isSome) = some p ∧
        p.history slug = some get ∧
        (get address opts = none →
          askedProviders address slug opts providers =
            p.name :: askedProviders address slug opts behind ∧
          fetchTransferPage address slug opts providers =
            fetchTransferPage address slug opts behind) ∧
        p.name ∈ askedProviders address slug opts providers := by
  induction providers with
  | nil => exact .inl rfl
  | cons q providers ih =>
      cases hq : q.history slug with
      | none =>
          have hasked : askedProviders address slug opts (q :: providers) =
              askedProviders address slug opts providers := by
            simp [askedProviders, hq]
          have hfetch : fetchTransferPage address slug opts (q :: providers) =
              fetchTransferPage address slug opts providers := by
            simp [fetchTransferPage, hq]
          rw [hasked, hfetch]
          rcases ih with hnil | ⟨p, get, before, behind, rfl, hfind, hget, hfail, hmem⟩
          · exact .inl hnil
          · refine .inr ⟨p, get, q :: before, behind, rfl, ?_, hget, hfail, hmem⟩
            rw [List.find?_cons_of_neg (by simp [hq])]
            exact hfind
      | some get =>
          refine .inr ⟨q, get, [], providers, rfl, ?_, hq, fun hnone => ?_, ?_⟩
          · rw [List.find?_cons_of_pos (by simp [hq])]
          · simp [askedProviders, fetchTransferPage, hq, hnone]
          · simp [askedProviders, hq]

end Fallback

/-! ## One load -/

section Load

variable {text : Text} {slugOf : ℕ → Option String} {portfolioId : ℕ} {call : LoadCall}
  {s : FeedState} {h : IssuedHistory}

/-- The issuer is the first provider the chain asks, and it answers with the page that the stored
cursor stands for. -/
def IssuerAnswers (slugOf : ℕ → Option String) (portfolioId : ℕ) (h : IssuedHistory)
    (s : FeedState) (call : LoadCall) : Prop :=
  ∀ target ∈ loadTarget slugOf portfolioId s, ∃ p get i page,
    call.providers.find? (fun q => (q.history target.2.2.1).isSome) = some p ∧
      p.name = h.provider ∧ p.history target.2.2.1 = some get ∧ i < h.pages.length ∧
      h.cursor i = target.2.2.2 ∧
      get target.2.1 { cursor := some target.2.2.2, limit := PAGE_LIMIT } = some page ∧
      h.IsPage i page

theorem cursor_of_loadTarget {portfolio : Ledger.Portfolio} {address slug cursor : String}
    (htarget : loadTarget slugOf portfolioId s = some (portfolio, address, slug, cursor)) :
    s.cursor portfolioId = some cursor := by
  unfold loadTarget at htarget
  obtain ⟨p, -, htarget⟩ := Option.bind_eq_some_iff.mp htarget
  split at htarget
  · cases htarget
  · obtain ⟨_, -, htarget⟩ := Option.bind_eq_some_iff.mp htarget
    obtain ⟨_, -, htarget⟩ := Option.bind_eq_some_iff.mp htarget
    obtain ⟨_, hcursor, heq⟩ := Option.map_eq_some_iff.mp htarget
    cases heq
    exact hcursor

/-- A load without a target changes nothing and asks nobody. -/
theorem load_of_no_target (htarget : loadTarget slugOf portfolioId s = none) :
    (importMoreTransfers text slugOf portfolioId call s).2 = s ∧
      requestsOf slugOf portfolioId call s = [] := by
  unfold importMoreTransfers requestsOf
  rw [htarget]
  exact ⟨rfl, rfl⟩

/-- A load that the issuer answers asks the issuer alone, and moves the cursor one page on. -/
theorem load_of_issuerAnswers {i : ℕ} (hi : i < h.pages.length)
    (hcursor : s.cursor portfolioId = some (h.cursor i))
    (htarget : loadTarget slugOf portfolioId s ≠ none)
    (hanswers : IssuerAnswers slugOf portfolioId h s call) :
    (importMoreTransfers text slugOf portfolioId call s).2.cursor portfolioId = h.nextCursor i ∧
      requestsOf slugOf portfolioId call s = [(h.provider, h.cursor i)] := by
  obtain ⟨⟨portfolio, address, slug, cursor⟩, hsome⟩ := Option.ne_none_iff_exists'.mp htarget
  obtain ⟨p, get, j, page, hfirst, hname, hget, hj, hissued, hpage, hispage⟩ :=
    hanswers _ hsome
  dsimp only at hfirst hget hissued hpage
  have hstored := cursor_of_loadTarget hsome
  rw [hcursor] at hstored
  have hsame : h.cursor i = cursor := Option.some_inj.mp hstored
  obtain rfl := h.cursor_inj i hi j hj (hsame.trans hissued.symm)
  obtain ⟨hfetch, hasked⟩ := fetchTransferPage_of_first hfirst hget hpage
  unfold importMoreTransfers requestsOf
  rw [hsome]
  dsimp only
  rw [hfetch, hasked, FeedState.cursor_setCursor, hname, hsame]
  exact ⟨hispage.2, rfl⟩

/-- The issuer is in the chain and supplies a page for the stored cursor. -/
def IssuerSupplies (slugOf : ℕ → Option String) (portfolioId : ℕ) (h : IssuedHistory)
    (s : FeedState) (call : LoadCall) : Prop :=
  ∀ target ∈ loadTarget slugOf portfolioId s, ∃ p ∈ call.providers, ∃ get page,
    p.name = h.provider ∧ p.history target.2.2.1 = some get ∧
      get target.2.1 { cursor := some target.2.2.2, limit := PAGE_LIMIT } = some page

/-- The cursor reaches its issuer only, and a page the issuer does not supply leaves it as it
is. -/
def SoundLoad (text : Text) (slugOf : ℕ → Option String) (portfolioId : ℕ) (h : IssuedHistory)
    (s : FeedState) (call : LoadCall) : Prop :=
  (∀ request ∈ requestsOf slugOf portfolioId call s, request.1 = h.provider) ∧
    (¬ IssuerSupplies slugOf portfolioId h s call →
      (importMoreTransfers text slugOf portfolioId call s).2.cursor portfolioId =
        s.cursor portfolioId)

/-- Over providers that answer the cursor of a page with that page if at all, a load is sound
exactly when the issuer is the first provider asked and answers. -/
theorem soundLoad_iff {i : ℕ} (hi : i < h.pages.length)
    (hcursor : s.cursor portfolioId = some (h.cursor i))
    (htarget : loadTarget slugOf portfolioId s ≠ none)
    (hnames : (call.providers.map WalletDataProvider.name).Nodup)
    (hserves : ∀ p ∈ call.providers, p.name = h.provider → ∀ slug get address page,
      p.history slug = some get →
        get address { cursor := some (h.cursor i), limit := PAGE_LIMIT } = some page →
          h.IsPage i page) :
    SoundLoad text slugOf portfolioId h s call ↔ IssuerAnswers slugOf portfolioId h s call := by
  constructor
  · rintro ⟨honly, hkept⟩ ⟨portfolio, address, slug, cursor⟩ hsome
    have hstored := cursor_of_loadTarget hsome
    rw [hcursor] at hstored
    obtain rfl : h.cursor i = cursor := Option.some_inj.mp hstored
    dsimp only
    have hlost : fetchTransferPage address slug
          { cursor := some (h.cursor i), limit := PAGE_LIMIT } call.providers = none →
        IssuerSupplies slugOf portfolioId h s call := by
      intro hnone
      by_contra hsupplies
      have hsame := hkept hsupplies
      unfold importMoreTransfers at hsame
      rw [hsome] at hsame
      dsimp only at hsame
      rw [hnone, hcursor] at hsame
      simp at hsame
    have hasked : ∀ name ∈ askedProviders address slug
        { cursor := some (h.cursor i), limit := PAGE_LIMIT } call.providers,
        name = h.provider := by
      intro name hmem
      refine honly (name, h.cursor i) ?_
      unfold requestsOf
      rw [hsome]
      exact List.mem_map_of_mem hmem
    rcases @askedProviders_cases address slug { cursor := some (h.cursor i), limit := PAGE_LIMIT }
      call.providers with hnil | ⟨p, get, before, behind, hchain, hfind, hget, hfail, hmem⟩
    · obtain ⟨p, hp, get, page, -, hget, -⟩ :=
        hlost (fetchTransferPage_of_nil hnil) _ hsome
      rw [history_of_not_asked hnil p hp] at hget
      cases hget
    · have hname := hasked p.name hmem
      have hp : p ∈ call.providers := by
        rw [hchain]
        simp
      cases hpage : get address { cursor := some (h.cursor i), limit := PAGE_LIMIT } with
      | some page =>
          exact ⟨p, get, i, page, hfind, hname, hget, hi, rfl, hpage,
            hserves p hp hname slug get address page hget hpage⟩
      | none =>
          obtain ⟨hrest, hfetch⟩ := hfail hpage
          have hbehind : askedProviders address slug
              { cursor := some (h.cursor i), limit := PAGE_LIMIT } behind = [] := by
            refine List.eq_nil_iff_forall_not_mem.mpr fun name hname' => ?_
            have hissuer : name = p.name := by
              rw [hname]
              exact hasked name (by rw [hrest]; exact List.mem_cons_of_mem _ hname')
            rw [hchain, List.map_append, List.map_cons] at hnames
            have hnot := (List.nodup_cons.mp (List.nodup_append.mp hnames).2.1).1
            exact hnot (hissuer ▸ askedProviders_subset name hname')
          have hnone := hfetch.trans (fetchTransferPage_of_nil hbehind)
          obtain ⟨q, hq, get', page, hqname, hget', hpage'⟩ := hlost hnone _ hsome
          have hsame : q = p := List.inj_on_of_nodup_map hnames hq hp (hqname.trans hname.symm)
          subst hsame
          dsimp only at hget' hpage'
          rw [hget] at hget'
          cases hget'
          rw [hpage] at hpage'
          cases hpage'
  · intro hanswers
    obtain ⟨-, hrequests⟩ :=
      @load_of_issuerAnswers text _ _ _ _ _ _ hi hcursor htarget hanswers
    refine ⟨fun request hmem => ?_, fun hsupplies => ?_⟩
    · rw [hrequests, List.mem_singleton] at hmem
      rw [hmem]
    · refine absurd (fun target hsome => ?_) hsupplies
      obtain ⟨p, get, j, page, hfirst, hname, hget, -, -, hpage, -⟩ := hanswers target hsome
      exact ⟨p, List.mem_of_find?_eq_some hfirst, get, page, hname, hget, hpage⟩

end Load

/-! ## The walk -/

/-- The ledger with, as history, the requests of the loads so far. -/
structure Walk where
  state : FeedState
  requests : List (String × String) := []

def LoadStep (text : Text) (slugOf : ℕ → Option String) (portfolioId : ℕ) (w : Walk)
    (call : LoadCall) (w' : Walk) : Prop :=
  w' =
    { state := (importMoreTransfers text slugOf portfolioId call w.state).2
      requests := w.requests ++ requestsOf slugOf portfolioId call w.state }

/-- The pages up to this one are requested, each from the issuer and once, and its successor is
next. -/
structure Walked (portfolioId : ℕ) (h : IssuedHistory) (k : ℕ) (w : Walk) : Prop where
  cursor : w.state.cursor portfolioId = h.nextCursor k
  requests : w.requests = (List.range k).map fun i => (h.provider, h.cursor (i + 1))
  bound : k = 0 ∨ k < h.pages.length

section Run

variable {text : Text} {slugOf : ℕ → Option String} {portfolioId : ℕ} {h : IssuedHistory}

theorem Walked.step {k : ℕ} {w w' : Walk} {call : LoadCall} (hw : Walked portfolioId h k w)
    (hstep : LoadStep text slugOf portfolioId w call w')
    (hanswers : IssuerAnswers slugOf portfolioId h w.state call) :
    ∃ k', Walked portfolioId h k' w' := by
  subst hstep
  by_cases htarget : loadTarget slugOf portfolioId w.state = none
  · obtain ⟨hstate, hrequests⟩ := @load_of_no_target text _ _ call _ htarget
    refine ⟨k, ?_, ?_, hw.bound⟩
    · show (importMoreTransfers text slugOf portfolioId call w.state).2.cursor portfolioId = _
      rw [hstate, hw.cursor]
    · show w.requests ++ requestsOf slugOf portfolioId call w.state = _
      rw [hrequests, List.append_nil, hw.requests]
  · obtain ⟨target, hsome⟩ := Option.ne_none_iff_exists'.mp htarget
    have hstored := cursor_of_loadTarget hsome
    obtain ⟨hlt, hissued⟩ := h.nextCursor_eq_some (hw.cursor.symm.trans hstored)
    rw [hissued] at hstored
    obtain ⟨hcursor, hrequests⟩ :=
      @load_of_issuerAnswers text _ _ _ _ _ _ hlt hstored htarget hanswers
    refine ⟨k + 1, hcursor, ?_, .inr hlt⟩
    show w.requests ++ requestsOf slugOf portfolioId call w.state = _
    rw [hrequests, hw.requests, List.range_succ, List.map_append]
    rfl

/-- As long as the issuer is the first provider the chain asks and answers, the loads after the
first page request the pages one after the other from their issuer, and once the stored cursor
is gone every page has been requested. -/
theorem loadMore_complete {w w' : Walk} {calls : List LoadCall}
    (hcursor : w.state.cursor portfolioId = h.nextCursor 0) (hfresh : w.requests = [])
    (hrun : Run (Guarded (LoadStep text slugOf portfolioId) fun w call =>
      IssuerAnswers slugOf portfolioId h w.state call) w calls w') :
    (∃ k, w'.state.cursor portfolioId = h.nextCursor k ∧
        w'.requests = (List.range k).map fun i => (h.provider, h.cursor (i + 1))) ∧
      (w'.state.cursor portfolioId = none →
        ∀ i, 0 < i → i < h.pages.length → (h.provider, h.cursor i) ∈ w'.requests) := by
  have hinvariant : ∃ k, Walked portfolioId h k w' := by
    refine Run.invariant (I := fun w => ∃ k, Walked portfolioId h k w) ?_ hrun
      ⟨0, hcursor, by rw [hfresh]; rfl, .inl rfl⟩
    rintro w call w' ⟨k, hw⟩ ⟨hstep, hanswers⟩
    exact hw.step hstep hanswers
  obtain ⟨k, hw⟩ := hinvariant
  refine ⟨⟨k, hw.cursor, hw.requests⟩, fun hdone i hpos hi => ?_⟩
  have hlast : ¬ k + 1 < h.pages.length := by
    intro hlt
    have hnext := hw.cursor
    unfold IssuedHistory.nextCursor at hnext
    rw [hdone, if_pos hlt] at hnext
    cases hnext
  rw [hw.requests, List.mem_map]
  refine ⟨i - 1, List.mem_range.mpr (by omega), ?_⟩
  rw [Nat.sub_add_cancel hpos]

end Run

/-! ### An outage of the issuer -/

def threePages : IssuedHistory where
  provider := "moralis"
  pages := [[], [], []]
  cursor i := if i = 1 then "c1" else if i = 2 then "c2" else "c0"
  cursor_ne i := by
    split
    · decide
    · split <;> decide
  cursor_inj := by decide

def eth (slug : String) : Option String := if slug = "eth" then some "0x1" else none

/-- What the gateway answers for the three pages. -/
def moralisUp (cursor : Option String) : Option Reply :=
  match cursor with
  | none => some ⟨[], some "c1", none⟩
  | some "c1" => some ⟨[], some "c2", none⟩
  | some "c2" => some ⟨[], none, none⟩
  | some _ => none

def loadCall (moralis goldrush : Option String → Option Reply) : LoadCall where
  providers :=
    [moralisProvider (some "key") eth fun _ _ _ => moralis,
      goldrushProvider (some "key") eth fun _ _ => goldrush]
  env := Ledger.sampleEnv
  nftStored _ := true

def afterFirstPage : Walk where
  state :=
    { db := walletDb
      syncCursor := fun portfolioId => if portfolioId = 1 then some "c1" else none }

def slugOfOne (chainId : ℕ) : Option String := if chainId = 1 then some "eth" else none

/-- The walk after one call. -/
def Walk.after (w : Walk) (call : LoadCall) : Walk where
  state := (importMoreTransfers sampleText slugOfOne 1 call w.state).2
  requests := w.requests ++ requestsOf slugOfOne 1 call w.state

theorem loadMore_complete_threePages :
    (("moralis", "c1") ∈ ((afterFirstPage.after (loadCall moralisUp fun _ => none)).after
        (loadCall moralisUp fun _ => none)).requests) ∧
      ("moralis", "c2") ∈ ((afterFirstPage.after (loadCall moralisUp fun _ => none)).after
        (loadCall moralisUp fun _ => none)).requests := by
  have hanswers : ∀ i, 0 < i → i < 3 → ∀ s : FeedState,
      s.cursor 1 = some (threePages.cursor i) →
      loadTarget slugOfOne 1 s = some (walletPortfolio, "0xcc", "eth", threePages.cursor i) →
      IssuerAnswers slugOfOne 1 threePages s (loadCall moralisUp fun _ => none) := by
    intro i hpos hi s hcursor htarget target hsome
    rw [htarget] at hsome
    cases hsome
    obtain rfl | rfl : i = 1 ∨ i = 2 := by omega
    · exact ⟨_, _, 1, ⟨[], some "c2", none⟩, rfl, rfl, rfl, by decide, rfl, rfl, rfl, rfl⟩
    · exact ⟨_, _, 2, ⟨[], none, none⟩, rfl, rfl, rfl, by decide, rfl, rfl, rfl, rfl⟩
  have hrun : Run (Guarded (LoadStep sampleText slugOfOne 1) fun w call =>
      IssuerAnswers slugOfOne 1 threePages w.state call) afterFirstPage
      [loadCall moralisUp fun _ => none, loadCall moralisUp fun _ => none]
      ((afterFirstPage.after (loadCall moralisUp fun _ => none)).after
        (loadCall moralisUp fun _ => none)) := by
    refine .cons ⟨rfl, hanswers 1 (by decide) (by decide) _ rfl rfl⟩
      (.cons ⟨rfl, hanswers 2 (by decide) (by decide) _ ?_ ?_⟩ (.nil _))
    · rfl
    · rfl
  have hcomplete := (loadMore_complete (h := threePages) rfl rfl hrun).2 rfl
  exact ⟨hcomplete 1 (by decide) (by decide), hcomplete 2 (by decide) (by decide)⟩

/-- Moralis fails for the second page: its cursor goes to GoldRush, which answers with its own
first page, and the walk goes on with GoldRush's cursor. -/
theorem not_complete_outage :
    ¬ ∀ (calls : List LoadCall) (w' : Walk),
      Run (LoadStep sampleText slugOfOne 1) afterFirstPage calls w' →
        (∀ request ∈ w'.requests, request.1 = threePages.provider) ∧
          (w'.state.cursor 1 = none → ∀ i, 0 < i → i < threePages.pages.length →
            (threePages.provider, threePages.cursor i) ∈ w'.requests) := by
  intro hcomplete
  have hforeign := (hcomplete
    [loadCall (fun _ => none) fun _ => some ⟨[], some "https://api/?page=1", none⟩] _
    (.cons rfl (.nil _))).1 ("goldrush", "c1") (List.mem_cons_of_mem _ List.mem_cons_self)
  exact absurd hforeign (by decide)

/-- With nobody to fall back to the cursor is gone, and the third page is never requested. -/
example : (afterFirstPage.after (loadCall (fun _ => none) fun _ => none)).state.cursor 1 = none ∧
    ("moralis", "c2") ∉
      (afterFirstPage.after (loadCall (fun _ => none) fun _ => none)).requests := by
  decide +kernel

end Neonfi.Wallet
