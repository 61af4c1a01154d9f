import Neonfi.Ledger.BulkCells
import Neonfi.Wallet.Summary

/-!
# Holdings and the catalog

`resolveOrCreateToken` maps a holding to a row of the token catalog: by contract, then by
symbol, else to a new row.
-/

namespace Neonfi.Wallet

open Lib
open Ledger (Db Token Js Failure uniqueViolation numericOverflow)

/-- The string functions of the runtime and the case-insensitive comparison of the database. -/
structure Text extends Js where
  insensitive : String → String → Bool

/-- Prisma's value that is too long for its column. -/
def valueTooLong : Failure := .database "P2000"

/-- PostgreSQL's refusal of a text with a null character. -/
def invalidByteSequence : Failure := .database "22021"

def storable (s : String) : Bool := s.toList.all fun c => c.toNat ≠ 0

/-- A `VarChar(255)` counts characters. -/
def fitsVarChar (s : String) : Bool := decide (s.length ≤ 255) && storable s

structure TokenResolveInput where
  symbol : String
  contractAddress : Option String
  usdPrice : Option ℚ

section Resolve

variable (text : Text)

/-- A contract address that is present and not empty, in lower case. -/
def normalizeContract (contractAddress : Option String) : Option String :=
  (contractAddress.filter (· ≠ "")).map text.toLowerCase

def findTokenByContract (contract : String) (db : Db) : Option Token :=
  db.tokens.rows.find? fun t => t.contractAddress.any fun c => text.insensitive c contract

def findTokenBySymbol (symbol : String) (db : Db) : Option Token :=
  db.tokens.rows.find? fun t => text.insensitive t.symbol symbol

/-- The row a holding finds: that of its contract, else that of its symbol. -/
def findTokenFor (symbol : String) (contractAddress : Option String) (db : Db) : Option Token :=
  ((normalizeContract text contractAddress).bind fun contract =>
    findTokenByContract text contract db).or (findTokenBySymbol text symbol db)

/-- `token.update` of the contract. -/
def setContract (tokenId : ℕ) (contract : String) (db : Db) : Db :=
  { db with
    tokens := db.tokens.modify
      (fun t => if t.id = tokenId then { t with contractAddress := some contract } else t)
      (fun t => by split <;> rfl) fun t => by split <;> rfl }

/-- `token.create` of an auto-listed row. -/
def createToken (t : TokenResolveInput) (db : Db) : Except Failure (Token × Db) :=
  let symbol := text.toUpperCase t.symbol
  let contract := normalizeContract text t.contractAddress
  let currentPrice := column.fix (t.usdPrice.getD 0)
  if ¬ fitsVarChar symbol ∨ ¬ contract.all fitsVarChar then .error valueTooLong
  else if ¬ column.fits currentPrice then .error numericOverflow
  else
    let mk (id : ℕ) : Token := { id, symbol, currentPrice, contractAddress := contract }
    match db.tokens.insert? mk fun _ => rfl with
    | some tokens => .ok (mk db.tokens.next, { db with tokens })
    | none => .error uniqueViolation

/-- A row found by symbol takes the contract if it has none. -/
def backfillContract (contract : Option String) (token : Token) (db : Db) :
    Except Failure (Token × Db) :=
  match contract, token.contractAddress with
  | some contract, none =>
      if fitsVarChar contract then
        .ok ({ token with contractAddress := some contract }, setContract token.id contract db)
      else .error valueTooLong
  | _, _ => .ok (token, db)

/-- After a unique violation the lookup by symbol is made once more. -/
def createOrFindToken (t : TokenResolveInput) (db : Db) : Except Failure (Token × Db) :=
  match createToken text t db with
  | .ok created => .ok created
  | .error e =>
      match (findTokenBySymbol text t.symbol db).filter fun _ => e = uniqueViolation with
      | some token => .ok (token, db)
      | none => .error e

def resolveOrCreateToken (t : TokenResolveInput) (db : Db) : Except Failure (Token × Db) :=
  let contract := normalizeContract text t.contractAddress
  if ¬ contract.all storable then .error invalidByteSequence
  else
    match contract.bind (findTokenByContract text · db) with
    | some token => .ok (token, db)
    | none =>
        match findTokenBySymbol text t.symbol db with
        | some token => backfillContract contract token db
        | none => createOrFindToken text t db

structure HeldToken where
  tokenId : ℕ
  symbol : String
  balance : ℚ
  usdPrice : Option ℚ
  contractAddress : Option String
  deriving DecidableEq, Repr

/-- The held entry of a holding that resolved to `token`. -/
def WalletToken.held (t : WalletToken) (token : Token) : HeldToken where
  tokenId := token.id
  symbol := token.symbol
  balance := t.balance
  usdPrice := t.usdPrice
  contractAddress := normalizeContract text t.contractAddress

def WalletToken.input (t : WalletToken) : TokenResolveInput where
  symbol := t.symbol
  contractAddress := t.contractAddress
  usdPrice := t.usdPrice

/-- A token that cannot be resolved is logged and left out. -/
def resolveHeldTokens : List WalletToken → Db → List HeldToken × Db
  | [], db => ([], db)
  | t :: ts, db =>
      if 0 < t.balance ∧ t.symbol ≠ "" then
        match resolveOrCreateToken text t.input db with
        | .ok (token, db') =>
            let (held, db'') := resolveHeldTokens ts db'
            (t.held text token :: held, db'')
        | .error _ => resolveHeldTokens ts db
      else resolveHeldTokens ts db

/-- A holding, the catalog it was looked up in and the row it was mapped to. -/
structure Resolved where
  holding : WalletToken
  catalog : Db
  token : Token

/-- The holdings that `resolveHeldTokens` maps to a row, in order. -/
def resolution : List WalletToken → Db → List Resolved
  | [], _ => []
  | t :: ts, db =>
      if 0 < t.balance ∧ t.symbol ≠ "" then
        match resolveOrCreateToken text t.input db with
        | .ok (token, db') => ⟨t, db, token⟩ :: resolution ts db'
        | .error _ => resolution ts db
      else resolution ts db

end Resolve

/-! ## What resolving a holding does -/

section Spec

variable {text : Text} {input : TokenResolveInput} {token : Token} {db db' : Db}

theorem backfillContract_ok {contract : Option String} {found : Token}
    (h : backfillContract contract found db = .ok (token, db')) :
    found.id = token.id ∧ (db' = db ∨ ∃ contract, db' = setContract token.id contract db) := by
  unfold backfillContract at h
  split at h
  · split at h
    · cases h
      exact ⟨rfl, .inr ⟨_, rfl⟩⟩
    · cases h
  · cases h
    exact ⟨rfl, .inl rfl⟩

theorem createOrFindToken_ok
    (hnone : findTokenBySymbol text input.symbol db = none)
    (h : createOrFindToken text input db = .ok (token, db')) :
    token.id = db.tokens.next ∧ db'.tokens.rows = db.tokens.rows ++ [token] ∧
      db'.tokens.next = db.tokens.next + 1 ∧ db' = { db with tokens := db'.tokens } := by
  unfold createOrFindToken at h
  rw [hnone] at h
  split at h
  · next created hcreate =>
      cases h
      unfold createToken at hcreate
      dsimp only at hcreate
      split at hcreate
      · cases hcreate
      · split at hcreate
        · cases hcreate
        · split at hcreate
          · next tokens hinsert =>
              cases hcreate
              obtain ⟨hrows, hnext⟩ := SerialTable.of_insert? hinsert
              exact ⟨rfl, hrows, hnext, rfl⟩
          · cases hcreate
  · rw [Option.filter_none] at h
    cases h

/-- The three ways to a row: it was found by contract, it was found by symbol and may have
taken the contract, or it is new. -/
theorem resolve_cases (h : resolveOrCreateToken text input db = .ok (token, db')) :
    (∃ found, findTokenFor text input.symbol input.contractAddress db = some found ∧
      found.id = token.id ∧ (db' = db ∨ ∃ contract, db' = setContract token.id contract db)) ∨
    (findTokenFor text input.symbol input.contractAddress db = none ∧ token.id = db.tokens.next ∧
      db'.tokens.rows = db.tokens.rows ++ [token] ∧ db'.tokens.next = db.tokens.next + 1 ∧
      db' = { db with tokens := db'.tokens }) := by
  unfold resolveOrCreateToken at h
  unfold findTokenFor
  dsimp only at h
  split at h
  · cases h
  · cases hcontract : (normalizeContract text input.contractAddress).bind
        (findTokenByContract text · db) with
    | some found =>
        rw [hcontract] at h
        cases h
        exact .inl ⟨token, Option.some_or, rfl, .inl rfl⟩
    | none =>
        rw [hcontract] at h
        dsimp only at h
        cases hsymbol : findTokenBySymbol text input.symbol db with
        | some found =>
            rw [hsymbol] at h
            left
            have hrow := backfillContract_ok h
            exact ⟨found, hsymbol ▸ Option.none_or, hrow.1, hrow.2⟩
        | none =>
            rw [hsymbol] at h
            right
            exact ⟨hsymbol ▸ Option.none_or, createOrFindToken_ok hsymbol h⟩

theorem findTokenFor_mem {symbol : String} {contractAddress : Option String}
    (h : findTokenFor text symbol contractAddress db = some token) :
    token ∈ db.tokens.rows := by
  unfold findTokenFor at h
  rcases Option.or_eq_some_iff.mp h with hcontract | ⟨-, hsymbol⟩
  · obtain ⟨contract, -, hfind⟩ := Option.bind_eq_some_iff.mp hcontract
    exact List.mem_of_find?_eq_some hfind
  · exact List.mem_of_find?_eq_some hsymbol

/-- Numbers of the catalog are never given out again. -/
theorem resolve_next (h : resolveOrCreateToken text input db = .ok (token, db')) :
    token.id < db'.tokens.next ∧ db.tokens.next ≤ db'.tokens.next := by
  rcases resolve_cases h with ⟨found, hfind, hid, hdb⟩ | ⟨-, hid, -, hnext, -⟩
  · have hnext : db'.tokens.next = db.tokens.next := by
      rcases hdb with rfl | ⟨contract, rfl⟩
      · rfl
      · rfl
    rw [hnext, ← hid]
    exact ⟨db.tokens.below found (findTokenFor_mem hfind), le_rfl⟩
  · omega

/-- Resolving a holding only touches the catalog. -/
theorem resolve_catalog (h : resolveOrCreateToken text input db = .ok (token, db')) :
    db' = { db with tokens := db'.tokens } := by
  rcases resolve_cases h with ⟨_, -, -, rfl | ⟨contract, rfl⟩⟩ | ⟨-, -, -, -, hcatalog⟩
  · rfl
  · rfl
  · exact hcatalog

/-! ## The whole list -/

theorem held_eq_resolution (ts : List WalletToken) (db : Db) :
    (resolveHeldTokens text ts db).1 =
      (resolution text ts db).map fun r => r.holding.held text r.token := by
  induction ts generalizing db with
  | nil => rfl
  | cons t ts ih =>
      rw [resolveHeldTokens, resolution]
      split
      · split
        · rw [List.map_cons, ← ih]
        · exact ih db
      · exact ih db

theorem catalog_resolveHeldTokens (ts : List WalletToken) (db : Db) :
    ∃ tokens, (resolveHeldTokens text ts db).2 = { db with tokens } := by
  induction ts generalizing db with
  | nil => exact ⟨db.tokens, rfl⟩
  | cons t ts ih =>
      rw [resolveHeldTokens]
      split
      · split
        · next token db' hresolve =>
            obtain ⟨tokens, htokens⟩ := ih db'
            rw [resolve_catalog hresolve] at htokens ⊢
            exact ⟨tokens, htokens⟩
        · exact ih db
      · exact ih db

theorem sublist_resolution (ts : List WalletToken) (db : Db) :
    ((resolution text ts db).map Resolved.holding).Sublist ts := by
  induction ts generalizing db with
  | nil => exact .slnil
  | cons t ts ih =>
      rw [resolution]
      split
      · split
        · exact (ih _).cons_cons t
        · exact (ih db).cons t
      · exact (ih db).cons t

/-- When no holding is left out, they are all mapped, in order. -/
theorem holdings_of_length_eq {ts : List WalletToken}
    (h : (resolveHeldTokens text ts db).1.length = ts.length) :
    (resolution text ts db).map Resolved.holding = ts := by
  apply (sublist_resolution ts db).eq_of_length
  rw [List.length_map, ← h, held_eq_resolution, List.length_map]

/-- Each holding was resolved, in a catalog that gave out no number twice. -/
theorem mem_resolution {ts : List WalletToken} {r : Resolved} (h : r ∈ resolution text ts db) :
    db.tokens.next ≤ r.catalog.tokens.next ∧ 0 < r.holding.balance ∧
      ∃ db', resolveOrCreateToken text r.holding.input r.catalog = .ok (r.token, db') := by
  induction ts generalizing db with
  | nil => cases h
  | cons t ts ih =>
      rw [resolution] at h
      split at h
      · next hheld =>
          split at h
          · next token db' hresolve =>
              rcases List.mem_cons.mp h with rfl | htail
              · exact ⟨le_rfl, hheld.1, db', hresolve⟩
              · obtain ⟨hnext, hspec⟩ := ih htail
                exact ⟨(resolve_next hresolve).2.trans hnext, hspec⟩
          · exact ih h
      · exact ih h

/-- A holding shares the row of an earlier one only where its lookup, by contract and then
by symbol, finds that row. -/
theorem pairwise_resolution (ts : List WalletToken) (db : Db) :
    (resolution text ts db).Pairwise fun r r' => r'.token.id = r.token.id →
      ∃ found, findTokenFor text r'.holding.symbol r'.holding.contractAddress r'.catalog =
        some found ∧ found.id = r.token.id := by
  induction ts generalizing db with
  | nil => exact .nil
  | cons t ts ih =>
      rw [resolution]
      split
      · split
        · next token db' hresolve =>
            refine .cons ?_ (ih db')
            intro r' hr' hid
            obtain ⟨hnext, -, db'', hresolve'⟩ := mem_resolution hr'
            have htaken := (resolve_next hresolve).1
            rcases resolve_cases hresolve' with ⟨found, hfind, hfound, -⟩ | ⟨-, hnew, -⟩
            · exact ⟨found, hfind, hfound.trans hid⟩
            · dsimp only at hid
              omega
        · exact ih db
      · exact ih db

end Spec

end Neonfi.Wallet
