import Mathlib.Data.List.DropRight
import Neonfi.Ledger.Model

/-!
# Portfolios and the requests that create, rename and delete them

`createPortfolio`, `updatePortfolio` and `deletePortfolioById` of `portfolios.service.ts`.  What
a request reads from the portfolio table, and what it writes, are steps of their own; plans,
chains and tokens stay as they are.
-/

namespace Neonfi.Portfolios

open Lib
open Ledger (Plan PortfolioType Token)

structure Portfolio where
  id : ℕ
  userId : ℕ
  name : String
  type : PortfolioType
  walletAddress : Option String
  chainId : Option ℕ
  deriving DecidableEq, Repr

/-- The table has no unique index besides its key. -/
abbrev PortfolioTable := SerialTable Portfolio Empty Portfolio.id fun _ => none

structure Chain where
  id : ℕ
  slug : String
  deriving DecidableEq, Repr

/-- What the requests read and no request here writes: plans, chains, tokens, and the lower case
of the runtime. -/
structure Env where
  effectivePlan : ℕ → Plan
  chains : ℕ → Option Chain
  tokens : ℕ → Option Token
  toLowerCase : String → String

def planCaps : Plan → ℕ
  | .free => 1
  | .pro => 10

def freeTierChainSlugs : List String := ["eth", "polygon", "bnb"]

/-! ## Errors -/

inductive Meta
  | limit (current limit : ℕ) (plan : Plan)
  | chain (chainSlug : String) (plan : Option Plan)
  | wallet (walletAddress : String) (chainId : ℕ) (chainSlug : String)
      (existingPortfolioId : ℕ) (existingPortfolioName : String)
  | token (tokenId : ℕ)
  | rank (tokenSymbol : String) (plan : Plan) (requiredRank : ℕ)
  deriving DecidableEq, Repr

structure PortfolioError where
  statusCode : ℕ
  code : String
  message : String
  info : Option Meta := none
  deriving DecidableEq, Repr

namespace PortfolioError

def planLimitReached (current limit : ℕ) (plan : Plan) : PortfolioError :=
  ⟨403, "PLAN_LIMIT_REACHED", "Portfolio limit reached for your plan",
    some (.limit current limit plan)⟩

def invalidName : PortfolioError :=
  ⟨400, "INVALID_NAME", "Portfolio name produces an empty slug", none⟩

def nameTaken : PortfolioError :=
  ⟨409, "NAME_TAKEN", "A portfolio with that name already exists", none⟩

def invalidChain : PortfolioError := ⟨400, "INVALID_CHAIN", "Chain not found", none⟩

def chainNeedsPro (chainSlug : String) : PortfolioError :=
  ⟨403, "PLAN_LIMIT_REACHED", "This chain requires a Pro subscription",
    some (.chain chainSlug (some .free))⟩

def invalidWalletAddress (chainSlug : String) : PortfolioError :=
  ⟨400, "INVALID_WALLET_ADDRESS", "Invalid wallet address for this chain",
    some (.chain chainSlug none)⟩

def walletAlreadyConnected (walletAddress : String) (chain : Chain) (existing : ℕ × String) :
    PortfolioError :=
  ⟨409, "WALLET_ALREADY_CONNECTED", "This wallet is already connected on this chain",
    some (.wallet walletAddress chain.id chain.slug existing.1 existing.2)⟩

def duplicateAsset (tokenId : ℕ) : PortfolioError :=
  ⟨409, "DUPLICATE_ASSET", "Duplicate token in assets list", some (.token tokenId)⟩

def invalidToken (tokenId : ℕ) : PortfolioError :=
  ⟨400, "INVALID_TOKEN", "Token not found", some (.token tokenId)⟩

def tokenNeedsPro (tokenSymbol : String) : PortfolioError :=
  ⟨403, "PLAN_LIMIT_REACHED", "Your plan only allows tokens ranked in the top 10",
    some (.rank tokenSymbol .free 10)⟩

def forbidden : PortfolioError := ⟨403, "FORBIDDEN", "Forbidden", none⟩

end PortfolioError

/-! ## Slugs and wallet addresses -/

/-- What `\s` and `trim` take for white space. -/
def isSpace (c : Char) : Bool :=
  c.toNat ∈ [0x9, 0xa, 0xb, 0xc, 0xd, 0x20, 0xa0, 0x1680, 0x2028, 0x2029, 0x202f, 0x205f, 0x3000,
    0xfeff] || (0x2000 ≤ c.toNat && c.toNat ≤ 0x200a)

def slugChar (c : Char) : Bool := c.isLower || c.isDigit || isSpace c || c = '-'

/-- Each run of such characters becomes one `-`; the flag says that a run has begun. -/
def dashRuns (p : Char → Bool) : Bool → List Char → List Char
  | _, [] => []
  | run, c :: cs =>
      if p c then
        if run then dashRuns p true cs else '-' :: dashRuns p true cs
      else c :: dashRuns p false cs

/-- One `-` at either end is dropped. -/
def stripDash (cs : List Char) : List Char :=
  let cs := if cs.head? = some '-' then cs.tail else cs
  if cs.getLast? = some '-' then cs.dropLast else cs

def slugify (toLowerCase : String → String) (name : String) : String :=
  let trimmed := ((toLowerCase name).toList.dropWhile isSpace).rdropWhile isSpace
  String.ofList
    (stripDash (dashRuns (· = '-') false (dashRuns isSpace false (trimmed.filter slugChar))))

def hexDigits : List Char := "0123456789abcdefABCDEF".toList

/-- `/^0x[a-fA-F0-9]{40}$/` -/
def isEvm (address : String) : Bool :=
  match address.toList with
  | '0' :: 'x' :: hex => hex.length = 40 && hex.all (· ∈ hexDigits)
  | _ => false

/-- `/^[1-9A-HJ-NP-Za-km-z]{32,44}$/` -/
def isSolana (address : String) : Bool :=
  32 ≤ address.length && address.length ≤ 44 &&
    address.toList.all fun c => c.isAlphanum && c ∉ ['0', 'O', 'I', 'l']

/-- The normalized address; `none` is an invalid one.  A valid address has ASCII letters only. -/
def validateWalletAddress (address : String) (chain : Chain) : Option String :=
  if chain.slug = "solana" then
    if isSolana address then some address else none
  else if isEvm address then some address.toLower else none

/-! ## Reading the table -/

section

variable (T : PortfolioTable) (userId : ℕ)

def countPortfoliosByUserId : ℕ := T.rows.countP fun p => p.userId = userId

def findUserPortfolioNames : List (ℕ × String) :=
  (T.rows.filter fun p => p.userId = userId).map fun p => (p.id, p.name)

def findConnectedPortfolioByWallet (walletAddress : String) (chainId : ℕ) : Option (ℕ × String) :=
  (T.rows.find? fun p => p.userId = userId ∧ p.chainId = some chainId ∧
    p.walletAddress = some walletAddress ∧ p.type = .connected).map fun p => (p.id, p.name)

def assertSlugAvailable (toLowerCase : String → String) (name : String) (excludeId : Option ℕ) :
    Except PortfolioError Unit :=
  let newSlug := slugify toLowerCase name
  if newSlug = "" then .error .invalidName
  else if (findUserPortfolioNames T userId).any fun p =>
      some p.1 ≠ excludeId ∧ slugify toLowerCase p.2 = newSlug then .error .nameTaken
  else .ok ()

end

/-! ## Requests -/

/-- Of the assets only the tokens are checked. -/
inductive CreateBody
  | connected (name walletAddress : String) (chainId : ℕ)
  | manual (name : String) (assets : List ℕ)
  deriving DecidableEq, Repr

def CreateBody.name : CreateBody → String
  | connected name _ _ => name
  | manual name _ => name

def CreateBody.assets : CreateBody → List ℕ
  | connected _ _ _ => []
  | manual _ assets => assets

/-- What is to be created; a wallet has its normalized address. -/
inductive Target
  | manual
  | connected (walletAddress : String) (chain : Chain)
  deriving DecidableEq, Repr

def Target.row (userId : ℕ) (name : String) : Target → ℕ → Portfolio
  | manual, id => ⟨id, userId, name, .manual, none, none⟩
  | connected walletAddress chain, id =>
      ⟨id, userId, name, .connected, some walletAddress, some chain.id⟩

/-- `asked`, the plan's limit is kept, the slug is free, the wallet is free. -/
inductive Creating
  | asked
  | counted
  | named
  | ready (target : Target)
  deriving DecidableEq, Repr

inductive Renaming
  | asked
  | found
  | available
  deriving DecidableEq, Repr

inductive Deleting
  | asked
  | found
  deriving DecidableEq, Repr

inductive Work
  | createPortfolio (userId : ℕ) (body : CreateBody) (phase : Creating)
  | updatePortfolio (userId portfolioId : ℕ) (name : String) (phase : Renaming)
  | deletePortfolioById (userId portfolioId : ℕ) (phase : Deleting)
  deriving DecidableEq, Repr

def Work.isNew : Work → Bool
  | .createPortfolio _ _ phase => phase = .asked
  | .updatePortfolio _ _ _ phase => phase = .asked
  | .deletePortfolioById _ _ phase => phase = .asked

inductive Outcome
  | portfolio (id : ℕ)
  | deleted
  | error (e : PortfolioError)
  | failed
  deriving DecidableEq, Repr

structure State where
  portfolios : PortfolioTable := .empty
  requests : ℕ → Option Work := fun _ => none
  answers : List (ℕ × Outcome) := []

/-- A request comes in, makes its next step, or breaks off. -/
inductive Act
  | request (id : ℕ) (work : Work)
  | go (id : ℕ)
  | fail (id : ℕ)
  deriving DecidableEq, Repr

/-- The checks of the assets in the transaction that creates the portfolio. -/
def checkAssets (env : Env) (plan : Plan) : List ℕ → List ℕ → Except PortfolioError Unit
  | _, [] => .ok ()
  | seen, tokenId :: rest =>
      if tokenId ∈ seen then .error (.duplicateAsset tokenId)
      else
        match env.tokens tokenId with
        | none => .error (.invalidToken tokenId)
        | some token =>
            if plan = .free ∧ token.rank.all (10 < ·) then .error (.tokenNeedsPro token.symbol)
            else checkAssets env plan (tokenId :: seen) rest

/-- The checks of a creation that do not read the portfolios. -/
def CreateBody.target (env : Env) (plan : Plan) : CreateBody → Except PortfolioError Target
  | connected _ walletAddress chainId =>
      match env.chains chainId with
      | none => .error .invalidChain
      | some chain =>
          if plan = .free ∧ chain.slug ∉ freeTierChainSlugs then .error (.chainNeedsPro chain.slug)
          else
            match validateWalletAddress walletAddress chain with
            | none => .error (.invalidWalletAddress chain.slug)
            | some normalized => .ok (.connected normalized chain)
  | manual _ _ => .ok .manual

/-- The refusal of a wallet that is connected already. -/
def Target.duplicate? (T : PortfolioTable) (userId : ℕ) : Target → Option PortfolioError
  | manual => none
  | connected walletAddress chain =>
      (findConnectedPortfolioByWallet T userId walletAddress chain.id).map
        (.walletAlreadyConnected walletAddress chain)

namespace State

variable (env : Env) (s : State) (id : ℕ)

def put (work : Work) : State :=
  { s with requests := Function.update s.requests id (some work) }

def finish (outcome : Outcome) : State :=
  { s with
    requests := Function.update s.requests id none
    answers := s.answers ++ [(id, outcome)] }

/-- One step of `createPortfolio`; the assets are created in the transaction of the row. -/
def createPortfolio (userId : ℕ) (body : CreateBody) : Creating → State
  | .asked =>
      let effectivePlan := env.effectivePlan userId
      let cap := planCaps effectivePlan
      let count := countPortfoliosByUserId s.portfolios userId
      if cap ≤ count then s.finish id (.error (.planLimitReached count cap effectivePlan))
      else s.put id (.createPortfolio userId body .counted)
  | .counted =>
      match assertSlugAvailable s.portfolios userId env.toLowerCase body.name none with
      | .error e => s.finish id (.error e)
      | .ok () => s.put id (.createPortfolio userId body .named)
  | .named =>
      match body.target env (env.effectivePlan userId) with
      | .error e => s.finish id (.error e)
      | .ok target =>
          match target.duplicate? s.portfolios userId with
          | some e => s.finish id (.error e)
          | none => s.put id (.createPortfolio userId body (.ready target))
  | .ready target =>
      match checkAssets env (env.effectivePlan userId) [] body.assets with
      | .error e => s.finish id (.error e)
      | .ok () =>
          match s.portfolios.insert? (target.row userId body.name)
              (by intro n; cases target <;> rfl) with
          | none => s.finish id .failed
          | some portfolios => { s with portfolios }.finish id (.portfolio s.portfolios.next)

/-- `updatePortfolioName`. -/
def updateName (portfolioId : ℕ) (name : String) : PortfolioTable :=
  s.portfolios.modify (fun p => if p.id = portfolioId then { p with name } else p)
    (fun p => by split <;> rfl) fun _ => rfl

def updatePortfolio (userId portfolioId : ℕ) (name : String) : Renaming → State
  | .asked =>
      match (s.portfolios.find? portfolioId).filter fun p => p.userId = userId with
      | none => s.finish id (.error .forbidden)
      | some portfolio =>
          if name = portfolio.name then s.finish id (.portfolio portfolioId)
          else s.put id (.updatePortfolio userId portfolioId name .found)
  | .found =>
      match assertSlugAvailable s.portfolios userId env.toLowerCase name (some portfolioId) with
      | .error e => s.finish id (.error e)
      | .ok () => s.put id (.updatePortfolio userId portfolioId name .available)
  | .available =>
      if (s.portfolios.find? portfolioId).isNone then s.finish id .failed
      else
        { s with portfolios := s.updateName portfolioId name }.finish id (.portfolio portfolioId)

def deletePortfolioById (userId portfolioId : ℕ) : Deleting → State
  | .asked =>
      match (s.portfolios.find? portfolioId).filter fun p => p.userId = userId with
      | none => s.finish id (.error .forbidden)
      | some _ => s.put id (.deletePortfolioById userId portfolioId .found)
  | .found =>
      if (s.portfolios.find? portfolioId).isNone then s.finish id .failed
      else
        { s with portfolios := s.portfolios.filter fun p => p.id ≠ portfolioId }.finish id .deleted

/-- The next step of a request. -/
def go : Work → State
  | .createPortfolio userId body phase => s.createPortfolio env id userId body phase
  | .updatePortfolio userId portfolioId name phase =>
      s.updatePortfolio env id userId portfolioId name phase
  | .deletePortfolioById userId portfolioId phase =>
      s.deletePortfolioById id userId portfolioId phase

def step : Act → Option State
  | .request id work =>
      if work.isNew ∧ s.requests id = none ∧ id ∉ s.answers.map Prod.fst then some (s.put id work)
      else none
  | .go id => (s.requests id).map (s.go env id)
  | .fail id => (s.requests id).map fun _ => s.finish id .failed

end State

/-- No portfolio yet, and nothing in flight. -/
def State.start : State := {}

def Steps (env : Env) (s : State) (act : Act) (s' : State) : Prop := s.step env act = some s'

end Neonfi.Portfolios
