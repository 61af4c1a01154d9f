import Mathlib.Data.Set.Function
import Neonfi.Lib.Run
import Neonfi.Portfolios.Model

/-!
# Limits on the portfolios of a user

A creation or a rename checks the limits before it writes, and nothing holds them in between.
The limits hold in every state of a run exactly when each write would pass its checks again.
-/

namespace Neonfi.Portfolios

open Lib

/-! ## Writes -/

inductive Write
  | create (userId : ℕ) (name : String) (target : Target)
  | rename (userId portfolioId : ℕ) (name : String)
  deriving DecidableEq, Repr

def Write.userId : Write → ℕ
  | create userId _ _ => userId
  | rename userId _ _ => userId

/-- The row that the step of an act creates or renames. -/
def State.write? (env : Env) (s : State) : Act → Option Write
  | .go id =>
      match s.requests id with
      | some (.createPortfolio userId body (.ready target)) =>
          if checkAssets env (env.effectivePlan userId) [] body.assets = .ok () then
            some (.create userId body.name target)
          else none
      | some (.updatePortfolio userId portfolioId name .available) =>
          if (s.portfolios.find? portfolioId).isSome then some (.rename userId portfolioId name)
          else none
      | _ => none
  | _ => none

/-- The checks that the request has made before it writes. -/
def Write.Allowed (env : Env) (T : PortfolioTable) : Write → Prop
  | create userId name target =>
      countPortfoliosByUserId T userId < planCaps (env.effectivePlan userId) ∧
        assertSlugAvailable T userId env.toLowerCase name none = .ok () ∧
          target.duplicate? T userId = none
  | rename userId portfolioId name =>
      assertSlugAvailable T userId env.toLowerCase name (some portfolioId) = .ok ()

/-- Where the step writes for the user, the checks pass at that moment. -/
def Rechecks (env : Env) (userId : ℕ) (s : State) (act : Act) : Prop :=
  ∀ w, s.write? env act = some w → w.userId = userId → w.Allowed env s.portfolios

/-! ## Limits -/

/-- The address of the row is its own normalized form. -/
def Portfolio.Normalized (p : Portfolio) : Prop :=
  ∃ address chain, p.walletAddress = some address ∧ p.chainId = some chain.id ∧
    validateWalletAddress address chain = some address

namespace PortfolioTable

variable (T : PortfolioTable) (userId : ℕ)

def of : Set Portfolio := {p | p ∈ T.rows ∧ p.userId = userId}

def connectedOf : Set Portfolio := {p | p ∈ T.of userId ∧ p.type = .connected}

end PortfolioTable

def Portfolio.slug (env : Env) (p : Portfolio) : String := slugify env.toLowerCase p.name

def Portfolio.wallet (p : Portfolio) : Option String × Option ℕ := (p.walletAddress, p.chainId)

/-- The limits of one user: the plan's number of portfolios, one for each slug, and one
connected portfolio for each normalized address and chain. -/
structure Within (env : Env) (T : PortfolioTable) (userId : ℕ) : Prop where
  count : countPortfoliosByUserId T userId ≤ planCaps (env.effectivePlan userId)
  slugs : Set.InjOn (Portfolio.slug env) (T.of userId)
  wallets : Set.InjOn Portfolio.wallet (T.connectedOf userId)
  normalized : ∀ p ∈ T.connectedOf userId, p.Normalized

section

variable {env : Env} {s s' : State} {act : Act} {T T' : PortfolioTable} {userId : ℕ}

/-! ### The checks -/

theorem assertSlugAvailable_iff {name : String} {excludeId : Option ℕ} :
    assertSlugAvailable T userId env.toLowerCase name excludeId = .ok () ↔
      slugify env.toLowerCase name ≠ "" ∧
        ∀ p ∈ T.of userId, some p.id ≠ excludeId → p.slug env ≠ slugify env.toLowerCase name := by
  unfold assertSlugAvailable
  dsimp only
  by_cases hempty : slugify env.toLowerCase name = ""
  · rw [if_pos hempty]
    exact ⟨nofun, fun h => absurd hempty h.1⟩
  · rw [if_neg hempty]
    constructor
    · intro h
      split at h
      · cases h
      · next hfree =>
          refine ⟨hempty, fun p hp hexclude hslug => hfree ?_⟩
          refine List.any_eq_true.mpr ⟨(p.id, p.name), ?_, decide_eq_true ⟨hexclude, hslug⟩⟩
          exact List.mem_map.mpr ⟨p, List.mem_filter.mpr ⟨hp.1, decide_eq_true hp.2⟩, rfl⟩
    · rintro ⟨-, hfree⟩
      refine if_neg fun hany => ?_
      obtain ⟨q, hq, htaken⟩ := List.any_eq_true.mp hany
      obtain ⟨p, hp, rfl⟩ := List.mem_map.mp hq
      obtain ⟨hmem, huser⟩ := List.mem_filter.mp hp
      obtain ⟨hexclude, hslug⟩ := of_decide_eq_true htaken
      exact hfree p ⟨hmem, of_decide_eq_true huser⟩ hexclude hslug

theorem findConnectedPortfolioByWallet_eq_none_iff {walletAddress : String} {chainId : ℕ} :
    findConnectedPortfolioByWallet T userId walletAddress chainId = none ↔
      ∀ p ∈ T.connectedOf userId, p.wallet ≠ (some walletAddress, some chainId) := by
  unfold findConnectedPortfolioByWallet
  rw [Option.map_eq_none_iff, List.find?_eq_none]
  constructor
  · rintro h p ⟨⟨hmem, huser⟩, htype⟩ hwallet
    obtain ⟨haddress, hchain⟩ := Prod.mk.inj hwallet
    exact h p hmem (decide_eq_true ⟨huser, hchain, haddress, htype⟩)
  · intro h p hmem hfound
    obtain ⟨huser, hchain, haddress, htype⟩ := of_decide_eq_true hfound
    exact h p ⟨⟨hmem, huser⟩, htype⟩ (Prod.ext haddress hchain)

theorem duplicate?_eq_none_iff {target : Target} {name : String} {id : ℕ} :
    target.duplicate? T userId = none ↔
      ((target.row userId name id).type = .connected →
        ∀ p ∈ T.connectedOf userId, p.wallet ≠ (target.row userId name id).wallet) := by
  cases target with
  | manual => exact ⟨nofun, fun _ => rfl⟩
  | connected walletAddress chain =>
      unfold Target.duplicate?
      rw [Option.map_eq_none_iff, findConnectedPortfolioByWallet_eq_none_iff]
      exact ⟨fun h _ => h, fun h => h rfl⟩

/-! ### The limits after a write -/

/-- The limits of a user depend on the portfolios of that user, and survive their removal. -/
theorem Within.of_subset (h : Within env T userId)
    (hcount : countPortfoliosByUserId T' userId ≤ countPortfoliosByUserId T userId)
    (hsub : T'.of userId ⊆ T.of userId) : Within env T' userId := by
  have hconnected : T'.connectedOf userId ⊆ T.connectedOf userId := fun p hp => ⟨hsub hp.1, hp.2⟩
  exact {
    count := hcount.trans h.count
    slugs := h.slugs.mono hsub
    wallets := h.wallets.mono hconnected
    normalized := fun p hp => h.normalized p (hconnected hp) }

theorem Within.filter (h : Within env T userId) (p : Portfolio → Bool) :
    Within env (T.filter p) userId :=
  h.of_subset (List.filter_sublist.countP_le) fun _ hr => ⟨List.mem_of_mem_filter hr.1, hr.2⟩

def Target.Normalized : Target → Prop
  | manual => True
  | connected walletAddress chain => validateWalletAddress walletAddress chain = some walletAddress

@[simp] theorem id_row {target : Target} {name : String} {n : ℕ} :
    (target.row userId name n).id = n := by
  cases target <;> rfl

@[simp] theorem userId_row {target : Target} {name : String} {n : ℕ} :
    (target.row userId name n).userId = userId := by
  cases target <;> rfl

@[simp] theorem name_row {target : Target} {name : String} {n : ℕ} :
    (target.row userId name n).name = name := by
  cases target <;> rfl

theorem count_create {r : Portfolio} (hrows : T'.rows = T.rows ++ [r]) :
    countPortfoliosByUserId T' userId =
      countPortfoliosByUserId T userId + if r.userId = userId then 1 else 0 := by
  unfold countPortfoliosByUserId
  rw [hrows, List.countP_append, List.countP_singleton]
  simp only [decide_eq_true_eq]

theorem of_create {r : Portfolio} (hrows : T'.rows = T.rows ++ [r]) (huser : r.userId = userId) :
    T'.of userId = insert r (T.of userId) := by
  ext p
  constructor
  · rintro ⟨hmem, hp⟩
    rw [hrows] at hmem
    rcases List.mem_append.mp hmem with hold | hnew
    · exact .inr ⟨hold, hp⟩
    · exact .inl (List.mem_singleton.mp hnew)
  · rintro (rfl | ⟨hmem, hp⟩)
    · exact ⟨hrows ▸ List.mem_append_right _ (List.mem_singleton_self _), huser⟩
    · exact ⟨hrows ▸ List.mem_append_left _ hmem, hp⟩

theorem connectedOf_create {r : Portfolio} (hrows : T'.rows = T.rows ++ [r])
    (huser : r.userId = userId) (htype : r.type = .connected) :
    T'.connectedOf userId = insert r (T.connectedOf userId) := by
  ext p
  unfold PortfolioTable.connectedOf
  rw [of_create hrows huser]
  constructor
  · rintro ⟨rfl | hold, hp⟩
    · exact .inl rfl
    · exact .inr ⟨hold, hp⟩
  · rintro (rfl | ⟨hold, hp⟩)
    · exact ⟨.inl rfl, htype⟩
    · exact ⟨.inr hold, hp⟩

theorem connectedOf_create_manual {r : Portfolio} (hrows : T'.rows = T.rows ++ [r])
    (huser : r.userId = userId) (htype : r.type ≠ .connected) :
    T'.connectedOf userId = T.connectedOf userId := by
  ext p
  unfold PortfolioTable.connectedOf
  rw [of_create hrows huser]
  constructor
  · rintro ⟨rfl | hold, hp⟩
    · exact absurd hp htype
    · exact ⟨hold, hp⟩
  · rintro ⟨hold, hp⟩
    exact ⟨.inr hold, hp⟩

theorem normalized_row {target : Target} {name : String} {n : ℕ} (h : target.Normalized)
    (htype : (target.row userId name n).type = .connected) :
    (target.row userId name n).Normalized := by
  cases target with
  | manual => cases htype
  | connected walletAddress chain => exact ⟨walletAddress, chain, rfl, rfl, h⟩

/-- A creation keeps the limits exactly when its checks pass as it writes. -/
theorem within_create_iff {target : Target} {name : String}
    (hrows : T'.rows = T.rows ++ [target.row userId name T.next]) (h : Within env T userId)
    (hslug : slugify env.toLowerCase name ≠ "") (hnormalized : target.Normalized) :
    Within env T' userId ↔ (Write.create userId name target).Allowed env T := by
  have hnew : target.row userId name T.next ∉ T.of userId := by
    intro hmem
    have hbelow := T.below _ hmem.1
    rw [id_row] at hbelow
    exact lt_irrefl _ hbelow
  have hslugs : Set.InjOn (Portfolio.slug env) (T'.of userId) ↔
      assertSlugAvailable T userId env.toLowerCase name none = .ok () := by
    rw [of_create hrows userId_row, Set.injOn_insert hnew, assertSlugAvailable_iff]
    constructor
    · rintro ⟨-, hfree⟩
      exact ⟨hslug, fun p hp _ heq => hfree ⟨p, hp, heq.trans (by rw [Portfolio.slug, name_row])⟩⟩
    · rintro ⟨-, hfree⟩
      refine ⟨h.slugs, ?_⟩
      rintro ⟨p, hp, heq⟩
      rw [Portfolio.slug, Portfolio.slug, name_row] at heq
      exact hfree p hp (Option.some_ne_none _) heq
  have hwallets : Set.InjOn Portfolio.wallet (T'.connectedOf userId) ↔
      target.duplicate? T userId = none := by
    rw [@duplicate?_eq_none_iff T userId target name T.next]
    by_cases htype : (target.row userId name T.next).type = .connected
    · rw [connectedOf_create hrows userId_row htype,
        Set.injOn_insert fun hmem => hnew hmem.1]
      constructor
      · exact fun hinj _ p hp heq => hinj.2 ⟨p, hp, heq⟩
      · intro hfree
        refine ⟨h.wallets, ?_⟩
        rintro ⟨p, hp, heq⟩
        exact hfree htype p hp heq
    · rw [connectedOf_create_manual hrows userId_row htype]
      exact ⟨fun _ hconnected => absurd hconnected htype, fun _ => h.wallets⟩
  have hcount := @count_create T T' userId _ hrows
  rw [if_pos userId_row] at hcount
  unfold Write.Allowed
  dsimp only
  rw [← hslugs, ← hwallets]
  constructor
  · intro hafter
    have hle := hafter.count
    exact ⟨by omega, hafter.slugs, hafter.wallets⟩
  · rintro ⟨hlt, hinj, hinjWallet⟩
    refine ⟨by omega, hinj, hinjWallet, ?_⟩
    intro p hp
    by_cases htype : (target.row userId name T.next).type = .connected
    · rw [connectedOf_create hrows userId_row htype] at hp
      rcases hp with rfl | hold
      · exact normalized_row hnormalized htype
      · exact h.normalized p hold
    · rw [connectedOf_create_manual hrows userId_row htype] at hp
      exact h.normalized p hp

/-- The row as `updatePortfolioName` leaves it. -/
def renamed (portfolioId : ℕ) (name : String) (p : Portfolio) : Portfolio :=
  if p.id = portfolioId then { p with name } else p

section

variable {portfolioId : ℕ} {name : String} (p : Portfolio)

@[simp] theorem id_renamed : (renamed portfolioId name p).id = p.id := by
  unfold renamed
  split <;> rfl

@[simp] theorem userId_renamed : (renamed portfolioId name p).userId = p.userId := by
  unfold renamed
  split <;> rfl

@[simp] theorem type_renamed : (renamed portfolioId name p).type = p.type := by
  unfold renamed
  split <;> rfl

@[simp] theorem wallet_renamed : (renamed portfolioId name p).wallet = p.wallet := by
  unfold renamed
  split <;> rfl

theorem normalized_renamed (h : p.Normalized) : (renamed portfolioId name p).Normalized := by
  unfold renamed
  split <;> exact h

end

theorem count_rename {portfolioId : ℕ} {name : String}
    (hrows : T'.rows = T.rows.map (renamed portfolioId name)) :
    countPortfoliosByUserId T' userId = countPortfoliosByUserId T userId := by
  unfold countPortfoliosByUserId
  rw [hrows, List.countP_map]
  congr 1
  funext p
  rw [Function.comp_apply, userId_renamed]

theorem of_rename {portfolioId : ℕ} {name : String}
    (hrows : T'.rows = T.rows.map (renamed portfolioId name)) :
    T'.of userId = renamed portfolioId name '' T.of userId := by
  ext q
  constructor
  · rintro ⟨hmem, huser⟩
    rw [hrows] at hmem
    obtain ⟨p, hp, rfl⟩ := List.mem_map.mp hmem
    exact ⟨p, ⟨hp, by rwa [userId_renamed] at huser⟩, rfl⟩
  · rintro ⟨p, ⟨hp, huser⟩, rfl⟩
    exact ⟨hrows ▸ List.mem_map_of_mem hp, (userId_renamed p).trans huser⟩

theorem connectedOf_rename {portfolioId : ℕ} {name : String}
    (hrows : T'.rows = T.rows.map (renamed portfolioId name)) {q : Portfolio}
    (hq : q ∈ T'.connectedOf userId) :
    ∃ p ∈ T.connectedOf userId, q = renamed portfolioId name p := by
  obtain ⟨hof, htype⟩ := hq
  rw [of_rename hrows] at hof
  obtain ⟨p, hp, rfl⟩ := hof
  exact ⟨p, ⟨hp, by rwa [type_renamed] at htype⟩, rfl⟩

/-- A rename keeps the limits exactly when its check passes as it writes. -/
theorem within_rename_iff {portfolioId : ℕ} {name : String} {p : Portfolio}
    (hrows : T'.rows = T.rows.map (renamed portfolioId name)) (h : Within env T userId)
    (hp : p ∈ T.of userId) (hid : p.id = portfolioId)
    (hslug : slugify env.toLowerCase name ≠ "") :
    Within env T' userId ↔ (Write.rename userId portfolioId name).Allowed env T := by
  have hnew : (renamed portfolioId name p).slug env = slugify env.toLowerCase name := by
    unfold renamed
    rw [if_pos hid]
    rfl
  have hother : ∀ q : Portfolio, q.id ≠ portfolioId → renamed portfolioId name q = q :=
    fun q hne => if_neg hne
  unfold Write.Allowed
  dsimp only
  rw [assertSlugAvailable_iff]
  constructor
  · intro hafter
    refine ⟨hslug, fun q hq hne heq => ?_⟩
    have hneq : q.id ≠ portfolioId := fun hsame => hne (congrArg some hsame)
    have hinj := hafter.slugs
    rw [of_rename hrows] at hinj
    have hsame := hinj ⟨q, hq, rfl⟩ ⟨p, hp, rfl⟩ (by rw [hother q hneq, heq, hnew])
    rw [hother q hneq] at hsame
    exact hneq (by rw [hsame, id_renamed, hid])
  · rintro ⟨-, hfree⟩
    refine ⟨(count_rename hrows).le.trans h.count, ?_, ?_, ?_⟩
    · rw [of_rename hrows]
      have hnamed : ∀ r ∈ T.of userId, r.id = portfolioId → r = p := fun r hr hrid =>
        SerialTable.eq_of_id_eq hr.1 hp.1 (hrid.trans hid.symm)
      rintro _ ⟨q, hq, rfl⟩ _ ⟨r, hr, rfl⟩ heq
      by_cases hqid : q.id = portfolioId
      · obtain rfl := hnamed q hq hqid
        by_cases hrid : r.id = portfolioId
        · rw [hnamed r hr hrid]
        · rw [hnew, hother r hrid] at heq
          exact absurd heq.symm (hfree r hr fun hsome => hrid (Option.some.inj hsome))
      · rw [hother q hqid] at heq ⊢
        by_cases hrid : r.id = portfolioId
        · obtain rfl := hnamed r hr hrid
          rw [hnew] at heq
          exact absurd heq (hfree q hq fun hsome => hqid (Option.some.inj hsome))
        · rw [hother r hrid] at heq ⊢
          exact h.slugs hq hr heq
    · intro x hx y hy heq
      obtain ⟨q, hq, rfl⟩ := connectedOf_rename hrows hx
      obtain ⟨r, hr, rfl⟩ := connectedOf_rename hrows hy
      rw [wallet_renamed, wallet_renamed] at heq
      rw [h.wallets hq hr heq]
    · intro x hx
      obtain ⟨q, hq, rfl⟩ := connectedOf_rename hrows hx
      exact normalized_renamed q (h.normalized q hq)

/-! ## Steps -/

/-- What a request may go on to, and what it knows then. -/
inductive Reads (env : Env) (s : State) : Work → Work → Prop
  | counted {userId : ℕ} {body : CreateBody} :
      Reads env s (.createPortfolio userId body .asked) (.createPortfolio userId body .counted)
  | named {userId : ℕ} {body : CreateBody}
      (h : assertSlugAvailable s.portfolios userId env.toLowerCase body.name none = .ok ()) :
      Reads env s (.createPortfolio userId body .counted) (.createPortfolio userId body .named)
  | ready {userId : ℕ} {body : CreateBody} {target : Target}
      (h : body.target env (env.effectivePlan userId) = .ok target) :
      Reads env s (.createPortfolio userId body .named)
        (.createPortfolio userId body (.ready target))
  | found {userId portfolioId : ℕ} {name : String} {p : Portfolio}
      (h : s.portfolios.find? portfolioId = some p) (huser : p.userId = userId) :
      Reads env s (.updatePortfolio userId portfolioId name .asked)
        (.updatePortfolio userId portfolioId name .found)
  | available {userId portfolioId : ℕ} {name : String}
      (h : assertSlugAvailable s.portfolios userId env.toLowerCase name (some portfolioId) =
        .ok ()) :
      Reads env s (.updatePortfolio userId portfolioId name .found)
        (.updatePortfolio userId portfolioId name .available)
  | deletes {userId portfolioId : ℕ} :
      Reads env s (.deletePortfolioById userId portfolioId .asked)
        (.deletePortfolioById userId portfolioId .found)

/-- What the step of an act does. -/
inductive Effect (env : Env) (s : State) : Act → State → Prop
  | request {id : ℕ} {work : Work} (hnew : work.isNew) :
      Effect env s (.request id work) (s.put id work)
  | reads {id : ℕ} {work work' : Work} (hwork : s.requests id = some work)
      (h : Reads env s work work') : Effect env s (.go id) (s.put id work')
  | ends {act : Act} {id : ℕ} {outcome : Outcome} (hwrite : s.write? env act = none) :
      Effect env s act (s.finish id outcome)
  | creates {id userId : ℕ} {body : CreateBody} {target : Target} {portfolios : PortfolioTable}
      {outcome : Outcome}
      (hwork : s.requests id = some (.createPortfolio userId body (.ready target)))
      (hwrite : s.write? env (.go id) = some (.create userId body.name target))
      (hrows : portfolios.rows =
        s.portfolios.rows ++ [target.row userId body.name s.portfolios.next])
      (hnext : portfolios.next = s.portfolios.next + 1) :
      Effect env s (.go id) ({ s with portfolios }.finish id outcome)
  | renames {id userId portfolioId : ℕ} {name : String} {p : Portfolio} {outcome : Outcome}
      (hwork : s.requests id = some (.updatePortfolio userId portfolioId name .available))
      (hwrite : s.write? env (.go id) = some (.rename userId portfolioId name))
      (hfound : s.portfolios.find? portfolioId = some p) :
      Effect env s (.go id)
        ({ s with portfolios := s.updateName portfolioId name }.finish id outcome)
  | deletes {id portfolioId : ℕ} {outcome : Outcome} (hwrite : s.write? env (.go id) = none) :
      Effect env s (.go id)
        ({ s with
          portfolios := s.portfolios.filter fun p => p.id ≠ portfolioId }.finish id outcome)

theorem write?_of_createPortfolio {id : ℕ} {body : CreateBody} {phase : Creating}
    (hwork : s.requests id = some (.createPortfolio userId body phase))
    (hphase : ∀ target, phase ≠ .ready target) : s.write? env (.go id) = none := by
  unfold State.write?
  dsimp only
  rw [hwork]
  cases phase with
  | ready target => exact absurd rfl (hphase target)
  | _ => rfl

theorem effect_createPortfolio {id : ℕ} {body : CreateBody} {phase : Creating}
    (hwork : s.requests id = some (.createPortfolio userId body phase)) :
    Effect env s (.go id) (s.createPortfolio env id userId body phase) := by
  cases phase with
  | asked =>
      have hwrite : s.write? env (.go id) = none := write?_of_createPortfolio hwork nofun
      unfold State.createPortfolio
      dsimp only
      split
      · exact .ends hwrite
      · exact .reads hwork .counted
  | counted =>
      have hwrite : s.write? env (.go id) = none := write?_of_createPortfolio hwork nofun
      unfold State.createPortfolio
      dsimp only
      split
      · exact .ends hwrite
      · next hfree => exact .reads hwork (.named hfree)
  | named =>
      have hwrite : s.write? env (.go id) = none := write?_of_createPortfolio hwork nofun
      unfold State.createPortfolio
      dsimp only
      split
      · exact .ends hwrite
      · next target htarget =>
          split
          · exact .ends hwrite
          · exact .reads hwork (.ready htarget)
  | ready target =>
      have hwrite : s.write? env (.go id) =
          if checkAssets env (env.effectivePlan userId) [] body.assets = .ok () then
            some (.create userId body.name target)
          else none := by
        unfold State.write?
        dsimp only
        rw [hwork]
      unfold State.createPortfolio
      dsimp only
      split
      · next e hassets =>
          rw [hassets, if_neg nofun] at hwrite
          exact .ends hwrite
      · next hassets =>
          rw [hassets, if_pos rfl] at hwrite
          split
          · next hnone =>
              obtain ⟨k, -⟩ := SerialTable.insert?_eq_none_iff.mp hnone
              cases k
          · next portfolios hinsert =>
              obtain ⟨hrows, hnext⟩ := SerialTable.of_insert? hinsert
              exact .creates hwork hwrite hrows hnext

theorem effect_updatePortfolio {id portfolioId : ℕ} {name : String} {phase : Renaming}
    (hwork : s.requests id = some (.updatePortfolio userId portfolioId name phase)) :
    Effect env s (.go id) (s.updatePortfolio env id userId portfolioId name phase) := by
  have hwrite : phase ≠ .available → s.write? env (.go id) = none := by
    intro hphase
    unfold State.write?
    dsimp only
    rw [hwork]
    cases phase with
    | available => exact absurd rfl hphase
    | _ => rfl
  cases phase with
  | asked =>
      unfold State.updatePortfolio
      dsimp only
      split
      · exact .ends (hwrite nofun)
      · next portfolio hportfolio =>
          split
          · exact .ends (hwrite nofun)
          · obtain ⟨hfound, huser⟩ := Option.filter_eq_some_iff.mp hportfolio
            exact .reads hwork (.found hfound (of_decide_eq_true huser))
  | found =>
      unfold State.updatePortfolio
      dsimp only
      split
      · exact .ends (hwrite nofun)
      · next hfree => exact .reads hwork (.available hfree)
  | available =>
      have hwrites : s.write? env (.go id) =
          if (s.portfolios.find? portfolioId).isSome then some (.rename userId portfolioId name)
          else none := by
        unfold State.write?
        dsimp only
        rw [hwork]
      unfold State.updatePortfolio
      dsimp only
      split
      · next hnone =>
          rw [Option.isNone_iff_eq_none.mp hnone] at hwrites
          exact .ends hwrites
      · next hsome =>
          obtain ⟨p, hp⟩ := Option.ne_none_iff_exists'.mp (hsome ∘ Option.isNone_iff_eq_none.mpr)
          rw [hp] at hwrites
          exact .renames hwork hwrites hp

theorem effect_deletePortfolioById {id portfolioId : ℕ} {phase : Deleting}
    (hwork : s.requests id = some (.deletePortfolioById userId portfolioId phase)) :
    Effect env s (.go id) (s.deletePortfolioById id userId portfolioId phase) := by
  have hwrite : s.write? env (.go id) = none := by
    unfold State.write?
    dsimp only
    rw [hwork]
  unfold State.deletePortfolioById
  cases phase with
  | asked =>
      dsimp only
      split
      · exact .ends hwrite
      · exact .reads hwork .deletes
  | found =>
      dsimp only
      split
      · exact .ends hwrite
      · exact .deletes hwrite

theorem effect_of_step (h : Steps env s act s') : Effect env s act s' := by
  unfold Steps State.step at h
  cases act with
  | request id work =>
      dsimp only at h
      split at h
      · next hnew =>
          cases h
          exact .request hnew.1
      · cases h
  | go id =>
      obtain ⟨work, hwork, rfl⟩ := Option.map_eq_some_iff.mp h
      unfold State.go
      cases work with
      | createPortfolio userId body phase => exact effect_createPortfolio hwork
      | updatePortfolio userId portfolioId name phase => exact effect_updatePortfolio hwork
      | deletePortfolioById userId portfolioId phase => exact effect_deletePortfolioById hwork
  | fail id =>
      obtain ⟨work, hwork, rfl⟩ := Option.map_eq_some_iff.mp h
      exact .ends rfl

/-! ## What a request has checked for good -/

/-- The name that a request has checked. -/
def Work.checkedName? : Work → Option String
  | .createPortfolio _ body .named => some body.name
  | .createPortfolio _ body (.ready _) => some body.name
  | .updatePortfolio _ _ name .available => some name
  | _ => none

def Work.target? : Work → Option Target
  | .createPortfolio _ _ (.ready target) => some target
  | _ => none

/-- The user and the portfolio of a rename that has found it. -/
def Work.renames? : Work → Option (ℕ × ℕ)
  | .updatePortfolio _ _ _ .asked => none
  | .updatePortfolio userId portfolioId _ _ => some (userId, portfolioId)
  | _ => none

/-- A slug that was checked is not empty, an address that was validated is normalized, and a
portfolio that was found is that of the user, or gone. -/
structure Sound (env : Env) (s : State) : Prop where
  names : ∀ id work name, s.requests id = some work → work.checkedName? = some name →
    slugify env.toLowerCase name ≠ ""
  targets : ∀ id work target, s.requests id = some work → work.target? = some target →
    target.Normalized
  owners : ∀ id work userId portfolioId, s.requests id = some work →
    work.renames? = some (userId, portfolioId) →
      portfolioId < s.portfolios.next ∧
        ∀ p ∈ s.portfolios.rows, p.id = portfolioId → p.userId = userId

theorem toLower_mem_hexDigits : ∀ c ∈ hexDigits, c.toLower ∈ hexDigits := by
  have hall : hexDigits.all (fun c => hexDigits.contains c.toLower) = true := by decide +kernel
  intro c hc
  exact List.contains_iff_mem.mp (List.all_eq_true.mp hall c hc)

theorem toLower_toLower (c : Char) : c.toLower.toLower = c.toLower := by
  -- a letter in lower case is outside the range that is changed
  unfold Char.toLower
  split
  · next hupper => grind [UInt32.toNat_add]
  · rfl

theorem toLower_toLower_string (a : String) : a.toLower.toLower = a.toLower := by
  unfold String.toLower
  rw [String.map_map]
  congr 1
  funext c
  exact toLower_toLower c

theorem isEvm_toLower {address : String} (h : isEvm address) : isEvm address.toLower := by
  unfold isEvm at h ⊢
  split at h
  · next hex heq =>
      unfold String.toLower
      rw [String.toList_map, heq]
      obtain ⟨hlength, hall⟩ := (Bool.and_eq_true _ _).mp h
      refine Bool.and_eq_true _ _ |>.mpr ⟨?_, ?_⟩
      · simpa using hlength
      · rw [List.all_eq_true] at hall ⊢
        intro c hc
        obtain ⟨d, hd, rfl⟩ := List.mem_map.mp hc
        exact decide_eq_true (toLower_mem_hexDigits d (of_decide_eq_true (hall d hd)))
  · cases h

theorem validateWalletAddress_normalized {address normalized : String} {chain : Chain}
    (h : validateWalletAddress address chain = some normalized) :
    validateWalletAddress normalized chain = some normalized := by
  unfold validateWalletAddress at h ⊢
  split at h
  · next hchain =>
      split at h
      · next hvalid =>
          cases h
          rw [if_pos hchain, if_pos hvalid]
      · cases h
  · next hchain =>
      split at h
      · next hvalid =>
          cases h
          rw [if_neg hchain, if_pos (isEvm_toLower hvalid), toLower_toLower_string]
      · cases h

theorem requests_put {id : ℕ} {work : Work} (id' : ℕ) : (s.put id work).requests id' =
    if id' = id then some work else s.requests id' :=
  Function.update_apply _ _ _ _

theorem requests_finish {id : ℕ} {outcome : Outcome} (id' : ℕ) :
    (s.finish id outcome).requests id' = if id' = id then none else s.requests id' :=
  Function.update_apply _ _ _ _

theorem requests_step (hstep : Effect env s act s') {id : ℕ} {work : Work}
    (h : s'.requests id = some work) :
    s.requests id = some work ∨ work.isNew ∨
      ∃ old, s.requests id = some old ∧ Reads env s old work := by
  have hput : ∀ {id' : ℕ} {work' : Work}, (s.put id' work').requests id = some work →
      s.requests id = some work ∨ id = id' ∧ work' = work := by
    intro id' work' hid
    rw [requests_put] at hid
    split at hid
    · next heq => exact .inr ⟨heq, Option.some.inj hid⟩
    · exact .inl hid
  have hfinish : ∀ {s₁ : State} {id' : ℕ} {outcome : Outcome}, s₁.requests = s.requests →
      (s₁.finish id' outcome).requests id = some work → s.requests id = some work := by
    intro s₁ id' outcome hsame hid
    rw [requests_finish] at hid
    split at hid
    · cases hid
    · exact hsame ▸ hid
  cases hstep with
  | request hnew =>
      rcases hput h with hsame | ⟨-, rfl⟩
      · exact .inl hsame
      · exact .inr (.inl hnew)
  | reads hwork hreads =>
      rcases hput h with hsame | ⟨rfl, rfl⟩
      · exact .inl hsame
      · exact .inr (.inr ⟨_, hwork, hreads⟩)
  | @ends act id' outcome => exact .inl (@hfinish s id' outcome rfl h)
  | @creates id' userId body target portfolios outcome =>
      exact .inl (@hfinish { s with portfolios } id' outcome rfl h)
  | @renames id' userId portfolioId name p outcome =>
      exact .inl (@hfinish { s with portfolios := s.updateName portfolioId name } id' outcome rfl h)
  | @deletes id' portfolioId outcome =>
      exact .inl (@hfinish { s with portfolios := s.portfolios.filter _ } id' outcome rfl h)

/-- A portfolio that is older than the step keeps its user. -/
theorem portfolios_step (hstep : Effect env s act s') :
    s.portfolios.next ≤ s'.portfolios.next ∧
      ∀ p ∈ s'.portfolios.rows, p.id < s.portfolios.next →
        ∃ q ∈ s.portfolios.rows, q.id = p.id ∧ q.userId = p.userId := by
  cases hstep with
  | @creates id userId body target portfolios outcome hwork hwrite hrows hnext =>
      refine ⟨hnext.ge.trans' (Nat.le_succ _), fun p hp hlt => ?_⟩
      have hmem : p ∈ portfolios.rows := hp
      rw [hrows] at hmem
      rcases List.mem_append.mp hmem with hold | hnew
      · exact ⟨p, hold, rfl, rfl⟩
      · rw [List.mem_singleton.mp hnew, id_row] at hlt
        exact absurd hlt (lt_irrefl _)
  | @renames id userId portfolioId name p outcome hwork hwrite hfound =>
      refine ⟨le_refl _, fun q hq _ => ?_⟩
      obtain ⟨old, hold, rfl⟩ := List.mem_map.mp hq
      exact ⟨old, hold, (id_renamed old).symm, (userId_renamed old).symm⟩
  | deletes => exact ⟨le_refl _, fun p hp _ => ⟨p, List.mem_of_mem_filter hp, rfl, rfl⟩⟩
  | _ => exact ⟨le_refl _, fun p hp _ => ⟨p, hp, rfl, rfl⟩⟩

theorem isNew_checks_nothing {work : Work} (h : work.isNew) :
    work.checkedName? = none ∧ work.target? = none ∧ work.renames? = none := by
  cases work with
  | createPortfolio userId body phase =>
      obtain rfl : phase = .asked := of_decide_eq_true h
      exact ⟨rfl, rfl, rfl⟩
  | updatePortfolio userId portfolioId name phase =>
      obtain rfl : phase = .asked := of_decide_eq_true h
      exact ⟨rfl, rfl, rfl⟩
  | deletePortfolioById userId portfolioId phase => exact ⟨rfl, rfl, rfl⟩

theorem Sound.step (h : Sound env s) (hstep : Effect env s act s') : Sound env s' := by
  obtain ⟨hnext, hkept⟩ := portfolios_step hstep
  constructor
  · intro id work name hid hname
    rcases requests_step hstep hid with hsame | hnew | ⟨old, hold, hreads⟩
    · exact h.names id work name hsame hname
    · rw [(isNew_checks_nothing hnew).1] at hname
      cases hname
    · cases hreads with
      | named hfree =>
          cases hname
          exact (assertSlugAvailable_iff.mp hfree).1
      | ready => exact h.names id _ name hold hname
      | available hfree =>
          cases hname
          exact (assertSlugAvailable_iff.mp hfree).1
      | _ => cases hname
  · intro id work target hid htarget
    rcases requests_step hstep hid with hsame | hnew | ⟨old, hold, hreads⟩
    · exact h.targets id work target hsame htarget
    · rw [(isNew_checks_nothing hnew).2.1] at htarget
      cases htarget
    · cases hreads with
      | @ready userId body target' hfound =>
          cases htarget
          unfold CreateBody.target at hfound
          split at hfound
          · split at hfound
            · cases hfound
            · split at hfound
              · cases hfound
              · split at hfound
                · cases hfound
                · next hvalid =>
                    cases hfound
                    exact validateWalletAddress_normalized hvalid
          · cases hfound
            trivial
      | _ => cases htarget
  · intro id work userId portfolioId hid hrenames
    have hbefore : portfolioId < s.portfolios.next ∧
        ∀ p ∈ s.portfolios.rows, p.id = portfolioId → p.userId = userId := by
      rcases requests_step hstep hid with hsame | hnew | ⟨old, hold, hreads⟩
      · exact h.owners id work userId portfolioId hsame hrenames
      · rw [(isNew_checks_nothing hnew).2.2] at hrenames
        cases hrenames
      · cases hreads with
        | found hfound huser =>
            cases hrenames
            obtain ⟨hmem, hpid⟩ := SerialTable.find?_eq_some_iff.mp hfound
            refine ⟨hpid ▸ s.portfolios.below _ hmem, fun q hq hqid => ?_⟩
            rw [SerialTable.eq_of_id_eq hq hmem (hqid.trans hpid.symm), huser]
        | available => exact h.owners id _ userId portfolioId hold hrenames
        | _ => cases hrenames
    refine ⟨hbefore.1.trans_le hnext, fun p hp hpid => ?_⟩
    obtain ⟨q, hq, hqid, huser⟩ := hkept p hp (hpid ▸ hbefore.1)
    exact huser ▸ hbefore.2 q hq (hqid.trans hpid)

/-! ## Runs -/

theorem rechecks_of_none (hwrite : s.write? env act = none) : Rechecks env userId s act := by
  intro w hw
  rw [hwrite] at hw
  cases hw

theorem rechecks_iff {w : Write} (hwrite : s.write? env act = some w) :
    Rechecks env userId s act ↔ (w.userId = userId → w.Allowed env s.portfolios) := by
  constructor
  · exact fun h => h w hwrite
  · intro h w' hw'
    rw [hwrite] at hw'
    cases hw'
    exact h

theorem write?_of_reads {id : ℕ} {work work' : Work} (hwork : s.requests id = some work)
    (h : Reads env s work work') : s.write? env (.go id) = none := by
  unfold State.write?
  dsimp only
  rw [hwork]
  cases h <;> rfl

/-- A step keeps the limits of a user exactly when what it writes for that user is allowed. -/
theorem within_step_iff (hsound : Sound env s) (h : Within env s.portfolios userId)
    (hstep : Effect env s act s') :
    Within env s'.portfolios userId ↔ Rechecks env userId s act := by
  cases hstep with
  | request hnew => exact ⟨fun _ => rechecks_of_none rfl, fun _ => h⟩
  | reads hwork hreads =>
      exact ⟨fun _ => rechecks_of_none (write?_of_reads hwork hreads), fun _ => h⟩
  | ends hwrite => exact ⟨fun _ => rechecks_of_none hwrite, fun _ => h⟩
  | @creates id owner body target portfolios outcome hwork hwrite hrows hnext =>
      rw [rechecks_iff hwrite]
      by_cases howner : owner = userId
      · subst howner
        have hiff := within_create_iff hrows h
          (hsound.names id _ body.name hwork rfl) (hsound.targets id _ target hwork rfl)
        exact ⟨fun hafter _ => hiff.mp hafter, fun hallowed => hiff.mpr (hallowed rfl)⟩
      · refine ⟨fun _ heq => absurd heq howner, fun _ => h.of_subset ?_ ?_⟩
        · show countPortfoliosByUserId portfolios userId ≤ _
          rw [count_create hrows, if_neg (by rw [userId_row]; exact howner), Nat.add_zero]
        · intro p hp
          have hmem : p ∈ portfolios.rows := hp.1
          rw [hrows] at hmem
          rcases List.mem_append.mp hmem with hold | hnew
          · exact ⟨hold, hp.2⟩
          · have huser := hp.2
            rw [List.mem_singleton.mp hnew, userId_row] at huser
            exact absurd huser howner
  | @renames id owner portfolioId name p outcome hwork hwrite hfound =>
      rw [rechecks_iff hwrite]
      obtain ⟨hmem, hid⟩ := SerialTable.find?_eq_some_iff.mp hfound
      have huser := (hsound.owners id _ owner portfolioId hwork rfl).2 p hmem hid
      have hrows : (s.updateName portfolioId name).rows =
          s.portfolios.rows.map (renamed portfolioId name) := rfl
      by_cases howner : owner = userId
      · subst howner
        have hiff := within_rename_iff hrows h ⟨hmem, huser⟩ hid (hsound.names id _ name hwork rfl)
        exact ⟨fun hafter _ => hiff.mp hafter, fun hallowed => hiff.mpr (hallowed rfl)⟩
      · refine ⟨fun _ heq => absurd heq howner, fun _ => h.of_subset (count_rename hrows).le ?_⟩
        show (s.updateName portfolioId name).of userId ⊆ _
        rw [of_rename hrows]
        rintro _ ⟨q, hq, rfl⟩
        have hne : q.id ≠ portfolioId := by
          intro hsame
          have heq := SerialTable.eq_of_id_eq hq.1 hmem (hsame.trans hid.symm)
          exact howner (by rw [← huser, ← heq, hq.2])
        rw [renamed, if_neg hne]
        exact hq
  | deletes hwrite => exact ⟨fun _ => rechecks_of_none hwrite, fun _ => h.filter _⟩

theorem sound_start : Sound env .start := by
  constructor
  · intro id work name hid
    cases hid
  · intro id work target hid
    cases hid
  · intro id work owner portfolioId hid
    cases hid

theorem within_start : Within env State.start.portfolios userId := by
  refine ⟨Nat.zero_le _, ?_, ?_, ?_⟩
  · rintro p ⟨hp, -⟩
    cases hp
  · rintro p ⟨⟨hp, -⟩, -⟩
    cases hp
  · rintro p ⟨⟨hp, -⟩, -⟩
    cases hp

/-- Over every run the limits of a user hold in all states exactly when each write for that user
is one that its checks allow at that moment. -/
theorem limits_hold_iff {acts : List Act} :
    Run (fun s act s' => Steps env s act s' ∧ Within env s'.portfolios userId) .start acts s ↔
      Run (Guarded (Steps env) (Rechecks env userId)) .start acts s :=
  @Run.keeping_iff State Act (Steps env) (Sound env) (fun s => Within env s.portfolios userId)
    (Rechecks env userId) (fun _ _ _ h hstep => h.step (effect_of_step hstep))
    (fun _ _ _ hsound h hstep => within_step_iff hsound h (effect_of_step hstep))
    State.start s acts sound_start within_start

end

/-! ## Concurrent creations -/

/-- The limits hold in every state that can be reached. -/
def LimitsHold (env : Env) : Prop :=
  ∀ (acts : List Act) (s : State) (userId : ℕ), Run (Steps env) .start acts s →
    Within env s.portfolios userId

/-- A server without chains and tokens, all users on the free plan. -/
def sampleEnv : Env where
  effectivePlan _ := .free
  chains _ := none
  tokens _ := none
  toLowerCase := String.toLower

def createFor (id userId : ℕ) (name : String) : Act :=
  .request id (.createPortfolio userId (.manual name []) .asked)

def sampleStep (act : Act) (s : State) : Option State := s.step sampleEnv act

/-- Both creations of user 1 have checked the limits when the first one writes. -/
def twoCreations : List Act :=
  [createFor 1 1 "Main", createFor 2 1 "main!", .go 1, .go 2, .go 1, .go 2, .go 1, .go 2, .go 1,
    .go 2]

theorem not_limitsHold : ¬ LimitsHold sampleEnv := by
  intro hholds
  have hcount := (hholds _ _ 1 (run_tried sampleStep twoCreations .start)).count
  have htwo :
      countPortfoliosByUserId (tried sampleStep twoCreations .start).2.portfolios 1 = 2 := by
    decide +kernel
  rw [htwo] at hcount
  exact absurd hcount (by decide)

end Neonfi.Portfolios
