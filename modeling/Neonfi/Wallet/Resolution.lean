import Mathlib.Logic.Relation
import Neonfi.Wallet.Tokens

/-!
# Resolving a holding again

A holding that was mapped to a row is mapped to that row again, and one that was refused is
refused again, as long as the tokens that are resolved in between agree with it: a contract the
catalog does not list comes under one symbol, and of the tokens under one symbol all or none
can be listed.
-/

namespace Neonfi.Wallet

open Lib
open Ledger (Db Token)

variable (text : Text)

/-- The contract of the token, as it is looked up and stored. -/
def TokenResolveInput.contract (i : TokenResolveInput) : Option String :=
  normalizeContract text i.contractAddress

def TokenResolveInput.contractFits (i : TokenResolveInput) : Bool := (i.contract text).all fitsVarChar

/-- A row can be created for the token. -/
def TokenResolveInput.creatable (i : TokenResolveInput) : Bool :=
  fitsVarChar (text.toUpperCase i.symbol) && i.contractFits text &&
    column.fits (column.fix (i.usdPrice.getD 0))

/-- Two tokens agree on what the catalog is to make of them. -/
structure Agree (db : Db) (i j : TokenResolveInput) : Prop where
  symbol : ∀ c d, i.contract text = some c → j.contract text = some d → text.insensitive d c →
    findTokenByContract text c db = none → text.insensitive j.symbol i.symbol
  columns : text.insensitive j.symbol i.symbol →
    j.contractFits text = i.contractFits text ∧ j.creatable text = i.creatable text

/-- The tokens agree with each other, and their symbols are found again in upper case. -/
structure Agreed (inputs : List TokenResolveInput) (db : Db) : Prop where
  pair : ∀ i ∈ inputs, ∀ j ∈ inputs, Agree text db i j
  upper : ∀ i ∈ inputs, text.insensitive (text.toUpperCase i.symbol) i.symbol

/-- The holding finds this row, which needs no contract from it. -/
structure Finds (i : TokenResolveInput) (token : Token) (db : Db) : Prop where
  found : findTokenFor text i.symbol i.contractAddress db = some token
  storable : (i.contract text).all storable
  listed : (i.contract text).isSome → token.contractAddress.isSome

/-- The holding finds a row that cannot take its contract, or none and cannot be listed. -/
inductive Lost (i : TokenResolveInput) (db : Db) : Prop
  | unstorable (h : ¬ (i.contract text).all storable) : Lost i db
  | unfit {c : String} {token : Token} (hcontract : i.contract text = some c)
      (hnone : findTokenByContract text c db = none)
      (hfound : findTokenBySymbol text i.symbol db = some token)
      (hfree : token.contractAddress = none) (hfits : i.contractFits text = false) : Lost i db
  | unlisted (hnone : findTokenFor text i.symbol i.contractAddress db = none)
      (hcreatable : i.creatable text = false) : Lost i db

variable {text} {i j : TokenResolveInput} {token : Token} {db db' : Db}

theorem findTokenFor_eq : findTokenFor text i.symbol i.contractAddress db =
    ((i.contract text).bind (findTokenByContract text · db)).or
      (findTokenBySymbol text i.symbol db) := rfl

/-- A row that is found by contract has one. -/
theorem isSome_of_findTokenByContract {c : String}
    (h : findTokenByContract text c db = some token) : token.contractAddress.isSome := by
  have hany := List.find?_some h
  cases hcontract : token.contractAddress with
  | none => simp [hcontract] at hany
  | some d => rfl

theorem insensitive_of_findTokenBySymbol {symbol : String}
    (h : findTokenBySymbol text symbol db = some token) : text.insensitive token.symbol symbol :=
  List.find?_some (p := fun t : Token => text.insensitive t.symbol symbol) h

theorem findTokenByContract_eq_none_iff {c : String} : findTokenByContract text c db = none ↔
    ∀ t ∈ db.tokens.rows, ∀ d, t.contractAddress = some d → ¬ text.insensitive d c := by
  unfold findTokenByContract
  rw [List.find?_eq_none]
  refine forall₂_congr fun t _ => ?_
  cases t.contractAddress <;> simp

theorem findTokenBySymbol_eq_none_iff {symbol : String} :
    findTokenBySymbol text symbol db = none ↔
      ∀ t ∈ db.tokens.rows, ¬ text.insensitive t.symbol symbol := by
  unfold findTokenBySymbol
  rw [List.find?_eq_none]

/-! ## A settled holding is passed over -/

theorem Finds.resolve (h : Finds text i token db) :
    resolveOrCreateToken text i db = .ok (token, db) := by
  have hfound := h.found
  have hstorable := h.storable
  have hlisted := h.listed
  rw [findTokenFor_eq] at hfound
  unfold TokenResolveInput.contract at hfound hstorable hlisted
  unfold resolveOrCreateToken
  dsimp only
  rw [if_neg (by simpa using hstorable)]
  cases hcontract : (normalizeContract text i.contractAddress).bind
      (findTokenByContract text · db) with
  | some found =>
      rw [hcontract, Option.some_or] at hfound
      cases hfound
      rfl
  | none =>
      rw [hcontract, Option.none_or] at hfound
      rw [hfound]
      dsimp only
      unfold backfillContract
      split
      · next hgiven hfree =>
          have hsome := hlisted (by rw [hgiven]; rfl)
          rw [hfree] at hsome
          cases hsome
      · rfl

theorem createToken_of_not_creatable (h : i.creatable text = false) :
    ∃ e, createToken text i db = .error e := by
  unfold createToken
  dsimp only
  split
  · exact ⟨_, rfl⟩
  · next htexts =>
      obtain ⟨hsymbol, hcontract⟩ := not_or.mp htexts
      rw [not_not] at hsymbol hcontract
      have hprice : column.fits (column.fix (i.usdPrice.getD 0)) = false := by
        unfold TokenResolveInput.creatable TokenResolveInput.contractFits
          TokenResolveInput.contract at h
        rw [hsymbol, hcontract] at h
        simpa using h
      rw [if_pos (by simp [hprice])]
      exact ⟨_, rfl⟩

theorem Lost.resolve (h : Lost text i db) : ∃ e, resolveOrCreateToken text i db = .error e := by
  unfold resolveOrCreateToken
  dsimp only
  cases h with
  | unstorable hunstorable =>
      unfold TokenResolveInput.contract at hunstorable
      rw [if_pos hunstorable]
      exact ⟨_, rfl⟩
  | @unfit c token hcontract hnone hfound hfree hfits =>
      split
      · exact ⟨_, rfl⟩
      · unfold TokenResolveInput.contractFits at hfits
        unfold TokenResolveInput.contract at hcontract hfits
        rw [hcontract, Option.bind_some, hnone, hfound]
        dsimp only
        unfold backfillContract
        rw [hfree]
        dsimp only
        rw [hcontract] at hfits
        rw [if_neg (by simpa using hfits)]
        exact ⟨_, rfl⟩
  | unlisted hnone hcreatable =>
      split
      · exact ⟨_, rfl⟩
      · rw [findTokenFor_eq, Option.or_eq_none_iff] at hnone
        unfold TokenResolveInput.contract at hnone
        rw [hnone.1, hnone.2]
        dsimp only
        obtain ⟨e, hcreate⟩ := @createToken_of_not_creatable text i db hcreatable
        unfold createOrFindToken
        rw [hcreate, hnone.2]
        exact ⟨e, rfl⟩

/-! ## Writes to the catalog -/

/-- What the backfill of a contract does to a row. -/
def withContract (tokenId : ℕ) (contract : String) (t : Token) : Token :=
  if t.id = tokenId then { t with contractAddress := some contract } else t

@[simp] theorem symbol_withContract (tokenId : ℕ) (contract : String) (t : Token) :
    (withContract tokenId contract t).symbol = t.symbol := by
  unfold withContract
  split <;> rfl

@[simp] theorem id_withContract (tokenId : ℕ) (contract : String) (t : Token) :
    (withContract tokenId contract t).id = t.id := by
  unfold withContract
  split <;> rfl

@[simp] theorem currentPrice_withContract (tokenId : ℕ) (contract : String) (t : Token) :
    (withContract tokenId contract t).currentPrice = t.currentPrice := by
  unfold withContract
  split <;> rfl

/-- The two ways the catalog changes: a row without a contract takes one that no row has, and a
row is added for a symbol and a contract that no row has. -/
inductive Lists (text : Text) (j : TokenResolveInput) (token : Token) (db db' : Db) : Prop
  | backfill {c : String} {row : Token} (hcontract : j.contract text = some c)
      (hnone : findTokenByContract text c db = none)
      (hfound : findTokenBySymbol text j.symbol db = some row)
      (hfree : row.contractAddress = none) (hfits : fitsVarChar c)
      (htoken : token = { row with contractAddress := some c })
      (hrows : db'.tokens.rows = db.tokens.rows.map (withContract row.id c)) :
      Lists text j token db db'
  | create (hnone : findTokenFor text j.symbol j.contractAddress db = none)
      (hcreatable : j.creatable text = true)
      (hsymbol : token.symbol = text.toUpperCase j.symbol)
      (hcontract : token.contractAddress = j.contract text)
      (hrows : db'.tokens.rows = db.tokens.rows ++ [token]) : Lists text j token db db'

theorem createToken_ok {created : Token × Db} (h : createToken text j db = .ok created) :
    j.creatable text = true ∧ created.1.symbol = text.toUpperCase j.symbol ∧
      created.1.contractAddress = j.contract text ∧
      created.2.tokens.rows = db.tokens.rows ++ [created.1] := by
  unfold createToken at h
  dsimp only at h
  split at h
  · cases h
  · next htexts =>
      split at h
      · cases h
      · next hprice =>
          split at h
          · next tokens hinsert =>
              cases h
              obtain ⟨hsymbol, hcontract⟩ := not_or.mp htexts
              rw [not_not] at hsymbol hcontract hprice
              refine ⟨?_, rfl, rfl, (SerialTable.of_insert? hinsert).1⟩
              unfold TokenResolveInput.creatable TokenResolveInput.contractFits
                TokenResolveInput.contract
              rw [hsymbol, hcontract, hprice]
              rfl
          · cases h

theorem createToken_of_creatable (h : j.creatable text = true)
    (hfree : ∀ t ∈ db.tokens.rows, t.symbol ≠ text.toUpperCase j.symbol) :
    ∃ created, createToken text j db = .ok created := by
  unfold TokenResolveInput.creatable TokenResolveInput.contractFits TokenResolveInput.contract at h
  rw [Bool.and_eq_true, Bool.and_eq_true] at h
  obtain ⟨⟨hsymbol, hcontract⟩, hprice⟩ := h
  unfold createToken
  dsimp only
  rw [if_neg (by simp [hsymbol, hcontract]), if_neg (by simp [hprice])]
  split
  · exact ⟨_, rfl⟩
  · next hinsert =>
      obtain ⟨k, hk, htaken⟩ := SerialTable.insert?_eq_none_iff.mp hinsert
      cases hk
      obtain ⟨t, ht, hsome⟩ := List.mem_filterMap.mp htaken
      exact absurd (Option.some.inj hsome) (hfree t ht)

/-! ## What resolving a holding settles -/

theorem findTokenBySymbol_withContract {c : String} {tokenId : ℕ}
    (hrows : db'.tokens.rows = db.tokens.rows.map (withContract tokenId c)) (symbol : String) :
    findTokenBySymbol text symbol db' =
      (findTokenBySymbol text symbol db).map (withContract tokenId c) := by
  unfold findTokenBySymbol
  rw [hrows, List.find?_map]
  congr 2
  funext t
  rw [Function.comp_apply, symbol_withContract]

/-- The contract only matters to who looks for it. -/
theorem findTokenByContract_withContract {c d : String} {row : Token} (hmem : row ∈ db.tokens.rows)
    (hfree : row.contractAddress = none) (hne : ¬ text.insensitive c d)
    (hrows : db'.tokens.rows = db.tokens.rows.map (withContract row.id c)) :
    findTokenByContract text d db' =
      (findTokenByContract text d db).map (withContract row.id c) := by
  unfold findTokenByContract
  rw [hrows, List.find?_map]
  congr 1
  apply List.find?_congr
  intro t ht
  rw [Function.comp_apply]
  unfold withContract
  split
  · next hid =>
      obtain rfl := SerialTable.eq_of_id_eq ht hmem hid
      simp [hfree, hne]
  · rfl

theorem findTokenBySymbol_concat {row : Token}
    (hrows : db'.tokens.rows = db.tokens.rows ++ [row]) (symbol : String) :
    findTokenBySymbol text symbol db' =
      (findTokenBySymbol text symbol db).or
        (if text.insensitive row.symbol symbol then some row else none) := by
  unfold findTokenBySymbol
  rw [hrows, List.find?_append, List.find?_singleton]

theorem findTokenByContract_concat {row : Token}
    (hrows : db'.tokens.rows = db.tokens.rows ++ [row]) (d : String) :
    findTokenByContract text d db' =
      (findTokenByContract text d db).or
        (if row.contractAddress.any fun c => text.insensitive c d then some row else none) := by
  unfold findTokenByContract
  rw [hrows, List.find?_append, List.find?_singleton]

/-- A token is resolved by a row that is there, or the catalog changes for it. -/
theorem resolve_ok (h : resolveOrCreateToken text i db = .ok (token, db')) :
    (i.contract text).all storable ∧
      ((Finds text i token db ∧ db' = db) ∨ Lists text i token db db') := by
  unfold resolveOrCreateToken at h
  dsimp only at h
  split at h
  · cases h
  · next hstorable =>
      rw [not_not] at hstorable
      refine ⟨hstorable, ?_⟩
      cases hcontract : (normalizeContract text i.contractAddress).bind
          (findTokenByContract text · db) with
      | some found =>
          rw [hcontract] at h
          cases h
          obtain ⟨c, -, hfound⟩ := Option.bind_eq_some_iff.mp hcontract
          refine .inl ⟨⟨?_, hstorable, fun _ => isSome_of_findTokenByContract hfound⟩, rfl⟩
          exact hcontract ▸ Option.some_or
      | none =>
          rw [hcontract] at h
          dsimp only at h
          cases hsymbol : findTokenBySymbol text i.symbol db with
          | some found =>
              rw [hsymbol] at h
              dsimp only at h
              unfold backfillContract at h
              split at h
              · next c hgiven hfree =>
                  split at h
                  · next hfits =>
                      cases h
                      rw [hgiven, Option.bind_some] at hcontract
                      exact .inr (.backfill hgiven hcontract hsymbol hfree hfits rfl rfl)
                  · cases h
              · next hkeep =>
                  cases h
                  refine .inl ⟨⟨?_, hstorable, ?_⟩, rfl⟩
                  · rw [findTokenFor_eq]
                    unfold TokenResolveInput.contract
                    rw [hcontract, hsymbol, Option.none_or]
                  · intro hgiven
                    obtain ⟨c, hgiven⟩ := Option.isSome_iff_exists.mp hgiven
                    rw [← Option.ne_none_iff_isSome]
                    exact hkeep c hgiven
          | none =>
              rw [hsymbol] at h
              dsimp only at h
              have hnone : findTokenFor text i.symbol i.contractAddress db = none := by
                rw [findTokenFor_eq]
                unfold TokenResolveInput.contract
                rw [hcontract, hsymbol, Option.none_or]
              unfold createOrFindToken at h
              rw [hsymbol] at h
              split at h
              · next hcreate =>
                  cases h
                  obtain ⟨hcreatable, hname, hrow, hrows⟩ := createToken_ok hcreate
                  exact .inr (.create hnone hcreatable hname hrow hrows)
              · cases h

/-- A token that is refused is lost. -/
theorem lost_of_resolve (hupper : text.insensitive (text.toUpperCase i.symbol) i.symbol)
    {e : Ledger.Failure} (h : resolveOrCreateToken text i db = .error e) : Lost text i db := by
  unfold resolveOrCreateToken at h
  dsimp only at h
  split at h
  · next hunstorable => exact .unstorable hunstorable
  · cases hcontract : (normalizeContract text i.contractAddress).bind
        (findTokenByContract text · db) with
    | some found =>
        rw [hcontract] at h
        cases h
    | none =>
        rw [hcontract] at h
        dsimp only at h
        cases hsymbol : findTokenBySymbol text i.symbol db with
        | some found =>
            rw [hsymbol] at h
            dsimp only at h
            unfold backfillContract at h
            split at h
            · next c hgiven hfree =>
                split at h
                · cases h
                · next hfits =>
                    rw [hgiven, Option.bind_some] at hcontract
                    refine .unfit hgiven hcontract hsymbol hfree ?_
                    unfold TokenResolveInput.contractFits TokenResolveInput.contract
                    rw [hgiven]
                    simpa using hfits
            · cases h
        | none =>
            have hnone : findTokenFor text i.symbol i.contractAddress db = none := by
              rw [findTokenFor_eq]
              unfold TokenResolveInput.contract
              rw [hcontract, hsymbol, Option.none_or]
            rw [hsymbol] at h
            dsimp only at h
            refine .unlisted hnone (Bool.eq_false_of_not_eq_true fun hcreatable => ?_)
            have hfree : ∀ t ∈ db.tokens.rows, t.symbol ≠ text.toUpperCase i.symbol := by
              intro t ht hname
              exact findTokenBySymbol_eq_none_iff.mp hsymbol t ht (hname ▸ hupper)
            obtain ⟨created, hcreate⟩ := createToken_of_creatable hcreatable hfree
            unfold createOrFindToken at h
            rw [hcreate] at h
            cases h

/-- Agreement is about contracts that are not listed, so it outlives changes. -/
theorem Agree.kept {k : TokenResolveInput} {listed : Token} (h : Agree text db i k)
    (hlists : Lists text j listed db db') : Agree text db' i k := by
  refine ⟨fun c d hc hd hsame hnone => h.symbol c d hc hd hsame ?_, h.columns⟩
  cases hlists with
  | @backfill e row hgiven hnone' hsymbol hrowFree hrowFits htoken hrows =>
      rw [findTokenByContract_eq_none_iff] at hnone ⊢
      intro t ht f hf
      have hkept : (withContract row.id e t).contractAddress = some f := by
        unfold withContract
        split
        · next hid =>
            obtain rfl := SerialTable.eq_of_id_eq ht (List.mem_of_find?_eq_some hsymbol) hid
            rw [hrowFree] at hf
            cases hf
        · exact hf
      exact hnone _ (hrows ▸ List.mem_map_of_mem ht) f hkept
  | create hnone' hcreatable hsymbol hlisted hrows =>
      rw [findTokenByContract_concat hrows, Option.or_eq_none_iff] at hnone
      exact hnone.1

section Outcome

variable (hcompare : Equivalence fun a b => text.insensitive a b)
include hcompare

theorem findTokenBySymbol_congr {symbol symbol' : String}
    (h : text.insensitive symbol symbol') :
    findTokenBySymbol text symbol db = findTokenBySymbol text symbol' db := by
  unfold findTokenBySymbol
  congr 1
  funext t
  rw [Bool.eq_iff_iff]
  exact ⟨fun ht => hcompare.trans ht h, fun ht => hcompare.trans ht (hcompare.symm h)⟩

/-- A token the catalog changed for finds its row. -/
theorem Lists.finds (hupper : text.insensitive (text.toUpperCase i.symbol) i.symbol)
    (hstorable : (i.contract text).all storable) (h : Lists text i token db db') :
    Finds text i token db' := by
  cases h with
  | @backfill c row hcontract hnone hfound hfree hfits htoken hrows =>
      refine ⟨?_, hstorable, fun _ => htoken ▸ rfl⟩
      have hmem := List.mem_of_find?_eq_some hfound
      rw [findTokenFor_eq, hcontract, Option.bind_some]
      have hself : findTokenByContract text c db' = some token := by
        cases hfind : findTokenByContract text c db' with
        | none =>
            rw [findTokenByContract_eq_none_iff] at hfind
            refine absurd (hcompare.refl c) (hfind token ?_ c (htoken ▸ rfl))
            rw [hrows]
            refine List.mem_map.mpr ⟨row, hmem, ?_⟩
            unfold withContract
            rw [if_pos rfl, htoken]
        | some found =>
            obtain ⟨t, ht, rfl⟩ := List.mem_map.mp (hrows ▸ List.mem_of_find?_eq_some hfind)
            have hany := List.find?_some hfind
            unfold withContract at hany ⊢
            split at hany
            · next hid =>
                obtain rfl := SerialTable.eq_of_id_eq ht hmem hid
                rw [if_pos hid, htoken]
            · obtain ⟨d, hd, hsame⟩ := Option.any_eq_true _ _ |>.mp hany
              exact absurd hsame (findTokenByContract_eq_none_iff.mp hnone t ht d hd)
      rw [hself, Option.some_or]
  | create hnone hcreatable hsymbol hcontract hrows =>
      rw [findTokenFor_eq, Option.or_eq_none_iff] at hnone
      refine ⟨?_, hstorable, fun hgiven => hcontract ▸ hgiven⟩
      rw [findTokenFor_eq]
      cases hgiven : i.contract text with
      | none =>
          rw [Option.bind_none, Option.none_or, findTokenBySymbol_concat hrows, hnone.2,
            Option.none_or, if_pos (hsymbol ▸ hupper)]
      | some c =>
          have hself : text.insensitive c c = true := hcompare.refl c
          rw [hgiven, Option.bind_some] at hnone
          rw [Option.bind_some, findTokenByContract_concat hrows, hnone.1, Option.none_or,
            hcontract, hgiven, Option.any_some, if_pos hself, Option.some_or]

/-- Of tokens that agree, each keeps its row while the catalog changes for another. -/
theorem Finds.kept {listed : Token} (h : Finds text i token db) (hagree : Agree text db i j)
    (hlists : Lists text j listed db db') :
    ∃ token', Finds text i token' db' ∧ token'.id = token.id ∧ token'.symbol = token.symbol := by
  have hfound := h.found
  rw [findTokenFor_eq] at hfound
  cases hlists with
  | @backfill c row hcontract hnone hsymbol hfree hfits htoken hrows =>
      have hmem := List.mem_of_find?_eq_some hsymbol
      refine ⟨withContract row.id c token, ⟨?_, h.storable, ?_⟩, id_withContract _ _ _,
        symbol_withContract _ _ _⟩
      · rw [findTokenFor_eq, findTokenBySymbol_withContract hrows]
        cases hgiven : i.contract text with
        | none =>
            rw [hgiven, Option.bind_none, Option.none_or] at hfound
            rw [Option.bind_none, Option.none_or, hfound, Option.map_some]
        | some d =>
            rw [hgiven, Option.bind_some] at hfound
            by_cases hsame : text.insensitive c d
            · have hnone' : findTokenByContract text d db = none := by
                rw [findTokenByContract_eq_none_iff] at hnone ⊢
                intro t ht e he hed
                exact hnone t ht e he (hcompare.trans hed (hcompare.symm hsame))
              have hsymbols := hagree.symbol d c hgiven hcontract hsame hnone'
              rw [hnone', Option.none_or, ← findTokenBySymbol_congr hcompare hsymbols, hsymbol]
                at hfound
              cases hfound
              have hlisted := h.listed (by rw [hgiven]; rfl)
              rw [hfree] at hlisted
              cases hlisted
            · rw [Option.bind_some, findTokenByContract_withContract hmem hfree hsame hrows,
                ← Option.map_or, hfound, Option.map_some]
      · intro hgiven
        have hlisted := h.listed hgiven
        unfold withContract
        split
        · rfl
        · exact hlisted
  | create hnone hcreatable hsymbol hcontract hrows =>
      refine ⟨token, ⟨?_, h.storable, h.listed⟩, rfl, rfl⟩
      rw [findTokenFor_eq, Option.or_eq_none_iff] at hnone
      rw [findTokenFor_eq, findTokenBySymbol_concat hrows]
      cases hgiven : i.contract text with
      | none =>
          rw [hgiven, Option.bind_none, Option.none_or] at hfound
          rw [Option.bind_none, Option.none_or, hfound, Option.some_or]
      | some d =>
          rw [hgiven, Option.bind_some] at hfound
          rw [Option.bind_some, findTokenByContract_concat hrows]
          cases hbyContract : findTokenByContract text d db with
          | some found =>
              rw [hbyContract, Option.some_or] at hfound
              rw [Option.some_or, Option.some_or, hfound]
          | none =>
              rw [hbyContract, Option.none_or] at hfound
              rw [Option.none_or, hfound, Option.some_or]
              split
              · next hsame =>
                  rw [hcontract] at hsame
                  obtain ⟨c, hc, hsame⟩ := Option.any_eq_true _ _ |>.mp hsame
                  have hsymbols := hagree.symbol d c hgiven hc hsame hbyContract
                  rw [← findTokenBySymbol_congr hcompare hsymbols, hnone.2] at hfound
                  cases hfound
              · exact Option.none_or

/-- Of tokens that agree, one that is refused stays so while the catalog changes for another. -/
theorem Lost.kept {listed : Token} (h : Lost text i db) (hagree : Agree text db i j)
    (hupper : text.insensitive (text.toUpperCase j.symbol) j.symbol)
    (hlists : Lists text j listed db db') : Lost text i db' := by
  cases h with
  | unstorable hunstorable => exact .unstorable hunstorable
  | @unfit c token hcontract hnone hfound hfree hfits =>
      cases hlists with
      | @backfill d row hgiven hnone' hsymbol hrowFree hrowFits htoken hrows =>
          have hmem := List.mem_of_find?_eq_some hsymbol
          have happart : ¬ text.insensitive j.symbol i.symbol := by
            intro hsymbols
            have hcolumns := (hagree.columns hsymbols).1
            unfold TokenResolveInput.contractFits at hcolumns hfits
            rw [hfits, hgiven, Option.all_some, hrowFits] at hcolumns
            cases hcolumns
          have hne : ¬ text.insensitive d c := fun hsame =>
            happart (hagree.symbol c d hcontract hgiven hsame hnone)
          have hother : token.id ≠ row.id := by
            intro hid
            obtain rfl := SerialTable.eq_of_id_eq (List.mem_of_find?_eq_some hfound) hmem hid
            exact happart (hcompare.trans (hcompare.symm (insensitive_of_findTokenBySymbol hsymbol))
              (insensitive_of_findTokenBySymbol hfound))
          refine .unfit hcontract ?_ ?_ hfree hfits
          · rw [findTokenByContract_withContract hmem hrowFree hne hrows, hnone, Option.map_none]
          · rw [findTokenBySymbol_withContract hrows, hfound, Option.map_some]
            unfold withContract
            rw [if_neg hother]
      | create hnone' hcreatable hsymbol hlisted hrows =>
          rw [findTokenFor_eq, Option.or_eq_none_iff] at hnone'
          refine .unfit hcontract ?_ ?_ hfree hfits
          · rw [findTokenByContract_concat hrows, hnone, Option.none_or, if_neg]
            intro hsame
            rw [hlisted] at hsame
            obtain ⟨d, hd, hsame⟩ := Option.any_eq_true _ _ |>.mp hsame
            have hsymbols := hagree.symbol c d hcontract hd hsame hnone
            rw [← findTokenBySymbol_congr hcompare hsymbols, hnone'.2] at hfound
            cases hfound
          · rw [findTokenBySymbol_concat hrows, hfound, Option.some_or]
  | unlisted hnone hrefused =>
      rw [findTokenFor_eq, Option.or_eq_none_iff, Option.bind_eq_none_iff] at hnone
      obtain ⟨hnoContract, hnoSymbol⟩ := hnone
      refine .unlisted ?_ hrefused
      rw [findTokenFor_eq, Option.or_eq_none_iff, Option.bind_eq_none_iff]
      cases hlists with
      | @backfill d row hgiven hnone' hsymbol hrowFree hrowFits htoken hrows =>
          have hmem := List.mem_of_find?_eq_some hsymbol
          constructor
          · intro c hc
            have hne : ¬ text.insensitive d c := by
              intro hsame
              have hsymbols := hagree.symbol c d hc hgiven hsame (hnoContract c hc)
              rw [findTokenBySymbol_congr hcompare hsymbols, hnoSymbol] at hsymbol
              cases hsymbol
            rw [findTokenByContract_withContract hmem hrowFree hne hrows, hnoContract c hc,
              Option.map_none]
          · rw [findTokenBySymbol_withContract hrows, hnoSymbol, Option.map_none]
      | create hnone' hcreatable hsymbol hlisted hrows =>
          have happart : ¬ text.insensitive j.symbol i.symbol := by
            intro hsymbols
            have hcolumns := (hagree.columns hsymbols).2
            rw [hcreatable, hrefused] at hcolumns
            cases hcolumns
          constructor
          · intro c hc
            rw [findTokenByContract_concat hrows, hnoContract c hc, Option.none_or, if_neg]
            intro hsame
            rw [hlisted] at hsame
            obtain ⟨d, hd, hsame⟩ := Option.any_eq_true _ _ |>.mp hsame
            exact happart (hagree.symbol c d hc hd hsame (hnoContract c hc))
          · rw [findTokenBySymbol_concat hrows, hnoSymbol, Option.none_or, if_neg]
            intro hsame
            rw [hsymbol] at hsame
            exact happart (hcompare.trans (hcompare.symm hupper) hsame)

end Outcome

/-! ## Runs of resolutions -/

/-- The row a token is mapped to, by number and symbol. -/
def mappedTo (text : Text) (i : TokenResolveInput) (db : Db) : Option (ℕ × String) :=
  match resolveOrCreateToken text i db with
  | .ok (token, _) => some (token.id, token.symbol)
  | .error _ => none

def afterResolve (text : Text) (i : TokenResolveInput) (db : Db) : Db :=
  match resolveOrCreateToken text i db with
  | .ok (_, db) => db
  | .error _ => db

/-- Resolving the token comes to this outcome and changes nothing. -/
def Settled (text : Text) (i : TokenResolveInput) : Option (ℕ × String) → Db → Prop
  | some (id, symbol), db =>
      ∃ token, Finds text i token db ∧ token.id = id ∧ token.symbol = symbol
  | none, db => Lost text i db

/-- The catalog stays as it is or changes for one of the tokens. -/
inductive Resolves (text : Text) (inputs : List TokenResolveInput) (db db' : Db) : Prop
  | elsewhere (h : db'.tokens = db.tokens) : Resolves text inputs db db'
  | lists {j : TokenResolveInput} {token : Token} (hj : j ∈ inputs)
      (h : Lists text j token db db') : Resolves text inputs db db'

abbrev Later (text : Text) (inputs : List TokenResolveInput) : Db → Db → Prop :=
  Relation.ReflTransGen (Resolves text inputs)

section Runs

variable {inputs : List TokenResolveInput} {outcome : Option (ℕ × String)}

theorem findTokenFor_of_tokens (h : db'.tokens = db.tokens) (symbol : String)
    (contract : Option String) :
    findTokenFor text symbol contract db' = findTokenFor text symbol contract db := by
  unfold findTokenFor findTokenByContract findTokenBySymbol
  rw [h]

theorem findTokenByContract_of_tokens (h : db'.tokens = db.tokens) (contract : String) :
    findTokenByContract text contract db' = findTokenByContract text contract db := by
  unfold findTokenByContract
  rw [h]

theorem Finds.of_tokens (h : db'.tokens = db.tokens) (hfinds : Finds text i token db) :
    Finds text i token db' := by
  refine ⟨?_, hfinds.storable, hfinds.listed⟩
  rw [findTokenFor_of_tokens h, hfinds.found]

theorem Settled.of_tokens (h : db'.tokens = db.tokens) (hsettled : Settled text i outcome db) :
    Settled text i outcome db' := by
  cases outcome with
  | some row =>
      obtain ⟨token, hfinds, hid, hsymbol⟩ := hsettled
      exact ⟨token, hfinds.of_tokens h, hid, hsymbol⟩
  | none =>
      cases hsettled with
      | unstorable hunstorable => exact .unstorable hunstorable
      | unfit hcontract hnone hfound hfree hfits =>
          refine .unfit hcontract ?_ ?_ hfree hfits
          · rw [findTokenByContract_of_tokens h, hnone]
          · unfold findTokenBySymbol at hfound ⊢
            rw [h, hfound]
      | unlisted hnone hrefused =>
          refine .unlisted ?_ hrefused
          rw [findTokenFor_of_tokens h, hnone]

theorem Settled.resolve (h : Settled text i outcome db) :
    mappedTo text i db = outcome ∧ afterResolve text i db = db := by
  unfold mappedTo afterResolve
  cases outcome with
  | some row =>
      obtain ⟨token, hfinds, hid, hsymbol⟩ := h
      rw [hfinds.resolve]
      exact ⟨congrArg some (Prod.ext hid hsymbol), rfl⟩
  | none =>
      obtain ⟨e, hresolve⟩ := Lost.resolve h
      rw [hresolve]
      exact ⟨rfl, rfl⟩

theorem Agreed.resolves (h : Agreed text inputs db) (hresolves : Resolves text inputs db db') :
    Agreed text inputs db' := by
  refine ⟨fun i hi k hk => ?_, h.upper⟩
  cases hresolves with
  | elsewhere htokens =>
      refine ⟨fun c d hc hd hsame hnone => ?_, (h.pair i hi k hk).columns⟩
      rw [findTokenByContract_of_tokens htokens] at hnone
      exact (h.pair i hi k hk).symbol c d hc hd hsame hnone
  | lists hj hlists => exact (h.pair i hi k hk).kept hlists

theorem Agreed.later (h : Agreed text inputs db) (hlater : Later text inputs db db') :
    Agreed text inputs db' := by
  induction hlater with
  | refl => exact h
  | tail _ hstep ih => exact ih.resolves hstep

theorem resolves_afterResolve (hi : i ∈ inputs) (db : Db) :
    Resolves text inputs db (afterResolve text i db) := by
  unfold afterResolve
  split
  · next token db' hresolve =>
      obtain ⟨-, ⟨-, rfl⟩ | hlists⟩ := resolve_ok hresolve
      · exact .elsewhere rfl
      · exact .lists hi hlists
  · exact .elsewhere rfl

variable (hcompare : Equivalence fun a b => text.insensitive a b)
include hcompare

theorem settled_afterResolve (hagreed : Agreed text inputs db) (hi : i ∈ inputs) :
    Settled text i (mappedTo text i db) (afterResolve text i db) := by
  unfold mappedTo afterResolve
  split
  · next token db' hresolve =>
      refine ⟨token, ?_, rfl, rfl⟩
      obtain ⟨hstorable, ⟨hfinds, rfl⟩ | hlists⟩ := resolve_ok hresolve
      · exact hfinds
      · exact hlists.finds hcompare (hagreed.upper i hi) hstorable
  · next e hresolve => exact lost_of_resolve (hagreed.upper i hi) hresolve

/-- The outcome of a token outlives what comes later. -/
theorem Settled.later (hagreed : Agreed text inputs db) (hlater : Later text inputs db db')
    (hi : i ∈ inputs) (h : Settled text i outcome db) : Settled text i outcome db' := by
  induction hlater with
  | refl => exact h
  | @tail mid last hbefore hstep ih =>
      have hmid := hagreed.later hbefore
      cases hstep with
      | elsewhere htokens => exact ih.of_tokens htokens
      | @lists j listed hj hlists =>
          cases outcome with
          | some row =>
              obtain ⟨token, hfinds, hid, hsymbol⟩ := ih
              obtain ⟨token', hfinds', hid', hsymbol'⟩ :=
                hfinds.kept hcompare (hmid.pair i hi j hj) hlists
              exact ⟨token', hfinds', hid'.trans hid, hsymbol'.trans hsymbol⟩
          | none => exact Lost.kept hcompare ih (hmid.pair i hi j hj) (hmid.upper j hj) hlists

end Runs

/-! ## The holdings of a summary -/

/-- The tokens of a summary that are resolved. -/
def heldInputs (ts : List WalletToken) : List TokenResolveInput :=
  (ts.filter fun t => 0 < t.balance ∧ t.symbol ≠ "").map WalletToken.input

section Held

variable {inputs : List TokenResolveInput} {ts : List WalletToken}

theorem resolveHeldTokens_cons (t : WalletToken) (ts : List WalletToken) (db : Db) :
    resolveHeldTokens text (t :: ts) db =
      if 0 < t.balance ∧ t.symbol ≠ "" then
        (((mappedTo text t.input db).map fun row =>
            (⟨row.1, row.2, t.balance, t.usdPrice, normalizeContract text t.contractAddress⟩ :
              HeldToken)).toList ++
          (resolveHeldTokens text ts (afterResolve text t.input db)).1,
          (resolveHeldTokens text ts (afterResolve text t.input db)).2)
      else resolveHeldTokens text ts db := by
  rw [resolveHeldTokens]
  unfold mappedTo afterResolve
  split
  · cases resolveOrCreateToken text t.input db with
    | error e => rfl
    | ok resolved => rfl
  · rfl

theorem later_resolveHeldTokens (hinputs : heldInputs ts ⊆ inputs) (db : Db) :
    Later text inputs db (resolveHeldTokens text ts db).2 := by
  induction ts generalizing db with
  | nil => exact .refl
  | cons t ts ih =>
      rw [resolveHeldTokens_cons]
      unfold heldInputs at hinputs ih
      by_cases hheld : 0 < t.balance ∧ t.symbol ≠ ""
      · rw [List.filter_cons_of_pos (by simpa using hheld), List.map_cons,
          List.cons_subset] at hinputs
        rw [if_pos hheld]
        exact .head (resolves_afterResolve hinputs.1 db) (ih hinputs.2 _)
      · rw [List.filter_cons_of_neg (by simpa using hheld)] at hinputs
        rw [if_neg hheld]
        exact ih hinputs db

/-- Resolved again later, the holdings come to the same rows, and the catalog stays as it is. -/
theorem resolveHeldTokens_again (hcompare : Equivalence fun a b => text.insensitive a b)
    (hagreed : Agreed text inputs db) (hinputs : heldInputs ts ⊆ inputs)
    (hlater : Later text inputs (resolveHeldTokens text ts db).2 db') :
    resolveHeldTokens text ts db' = ((resolveHeldTokens text ts db).1, db') := by
  induction ts generalizing db with
  | nil => rfl
  | cons t ts ih =>
      rw [resolveHeldTokens_cons] at hlater ⊢
      rw [resolveHeldTokens_cons]
      have hrest : heldInputs ts ⊆ inputs := by
        refine List.Subset.trans ?_ hinputs
        exact List.map_subset _ ((List.sublist_cons_self t ts).filter _).subset
      split
      · next hheld =>
          rw [if_pos hheld] at hlater
          have hi : t.input ∈ inputs :=
            hinputs (List.mem_map_of_mem (List.mem_filter.mpr ⟨List.mem_cons_self, by simpa⟩))
          have hstep := @resolves_afterResolve text t.input inputs hi db
          have hthen := (later_resolveHeldTokens hrest (afterResolve text t.input db)).trans hlater
          have hsettled := (settled_afterResolve hcompare hagreed hi).later hcompare
            (hagreed.resolves hstep) hthen hi
          obtain ⟨hmapped, hafter⟩ := hsettled.resolve
          rw [hmapped, hafter, ih (hagreed.resolves hstep) hrest hlater]
      · next hheld =>
          rw [if_neg hheld] at hlater
          exact ih hagreed hrest hlater

/-- Every held entry is that of a holding, and its row is the one this holding finds. -/
theorem settled_of_held (hcompare : Equivalence fun a b => text.insensitive a b)
    (hagreed : Agreed text inputs db) (hinputs : heldInputs ts ⊆ inputs) {h : HeldToken}
    (hmem : h ∈ (resolveHeldTokens text ts db).1) :
    ∃ t ∈ ts, t.input ∈ heldInputs ts ∧ h.contractAddress = t.input.contract text ∧
      Settled text t.input (some (h.tokenId, h.symbol)) (resolveHeldTokens text ts db).2 := by
  induction ts generalizing db with
  | nil => cases hmem
  | cons t ts ih =>
      rw [resolveHeldTokens_cons] at hmem ⊢
      have hsub : heldInputs ts ⊆ heldInputs (t :: ts) :=
        List.map_subset _ ((List.sublist_cons_self t ts).filter _).subset
      have hrest : heldInputs ts ⊆ inputs := List.Subset.trans hsub hinputs
      split at hmem
      · next hheld =>
          rw [if_pos hheld]
          have hi : t.input ∈ heldInputs (t :: ts) :=
            List.mem_map_of_mem (List.mem_filter.mpr ⟨List.mem_cons_self, by simpa⟩)
          have hnext := hagreed.resolves (resolves_afterResolve (hinputs hi) db)
          rcases List.mem_append.mp hmem with hfirst | hlast
          · obtain ⟨row, hrow, rfl⟩ := Option.map_eq_some_iff.mp (Option.mem_toList.mp hfirst)
            have hsettled := settled_afterResolve hcompare hagreed (hinputs hi)
            rw [hrow] at hsettled
            refine ⟨t, List.mem_cons_self, hi, rfl, ?_⟩
            exact hsettled.later hcompare hnext (later_resolveHeldTokens hrest _) (hinputs hi)
          · obtain ⟨t', ht', hi', hcontract, hsettled⟩ := ih hnext hrest hlast
            exact ⟨t', List.mem_cons_of_mem t ht', hsub hi', hcontract, hsettled⟩
      · next hheld =>
          rw [if_neg hheld]
          obtain ⟨t', ht', hi', hcontract, hsettled⟩ := ih hagreed hrest hmem
          exact ⟨t', List.mem_cons_of_mem t ht', hsub hi', hcontract, hsettled⟩

end Held

/-! ## Listed contracts -/

theorem Lists.mem_cases (h : Lists text j token db db') {t : Token} (ht : t ∈ db'.tokens.rows) :
    t ∈ db.tokens.rows ∨ t = token := by
  cases h with
  | @backfill d row hcontract hnone hfound hfree hfits htoken hrows =>
      obtain ⟨old, hold, rfl⟩ := List.mem_map.mp (hrows ▸ ht)
      unfold withContract
      split
      · next hid =>
          obtain rfl := SerialTable.eq_of_id_eq hold (List.mem_of_find?_eq_some hfound) hid
          exact .inr htoken.symm
      · exact .inl hold
  | create hnone hcreatable hsymbol hcontract hrows =>
      rw [hrows] at ht
      exact (List.mem_append.mp ht).imp_right List.mem_singleton.mp

theorem Lists.contract_eq (h : Lists text j token db db') :
    token.contractAddress = j.contract text := by
  cases h with
  | backfill hcontract hnone hfound hfree hfits htoken hrows => rw [htoken, hcontract]
  | create hnone hcreatable hsymbol hcontract hrows => exact hcontract

/-- The contract the catalog changes for was not listed. -/
theorem Lists.findTokenByContract {c : String} (h : Lists text j token db db')
    (hc : j.contract text = some c) : findTokenByContract text c db = none := by
  cases h with
  | backfill hcontract hnone hfound hfree hfits htoken hrows =>
      cases hcontract.symm.trans hc
      exact hnone
  | create hnone hcreatable hsymbol hcontract hrows =>
      rw [findTokenFor_eq, Option.or_eq_none_iff, hc] at hnone
      exact hnone.1

/-- A contract that the token does not bring is on the row where it was before. -/
theorem Lists.mem_of_contract {c : String} (h : Lists text j token db db')
    (hne : j.contract text ≠ some c) {t : Token} (ht : t ∈ db'.tokens.rows)
    (hc : t.contractAddress = some c) : t ∈ db.tokens.rows := by
  rcases h.mem_cases ht with hold | rfl
  · exact hold
  · exact absurd (h.contract_eq.symm.trans hc) hne

/-- A row that lists a contract does not change. -/
theorem Lists.mem_of_listed (h : Lists text j token db db') {t : Token} (ht : t ∈ db.tokens.rows)
    (hlisted : t.contractAddress.isSome) : t ∈ db'.tokens.rows := by
  cases h with
  | @backfill d row hcontract hnone hfound hfree hfits htoken hrows =>
      rw [hrows]
      refine List.mem_map.mpr ⟨t, ht, ?_⟩
      unfold withContract
      split
      · next hid =>
          obtain rfl := SerialTable.eq_of_id_eq ht (List.mem_of_find?_eq_some hfound) hid
          rw [hfree] at hlisted
          cases hlisted
      · rfl
  | create hnone hcreatable hsymbol hcontract hrows =>
      rw [hrows]
      exact List.mem_append_left _ ht

theorem Later.mem_of_contract {inputs : List TokenResolveInput} {c : String}
    (h : Later text inputs db db') (hne : ∀ i ∈ inputs, i.contract text ≠ some c) {t : Token}
    (ht : t ∈ db'.tokens.rows) (hc : t.contractAddress = some c) : t ∈ db.tokens.rows := by
  induction h with
  | refl => exact ht
  | tail _ hstep ih =>
      cases hstep with
      | elsewhere htokens => exact ih (htokens ▸ ht)
      | lists hj hlists => exact ih (hlists.mem_of_contract (hne _ hj) ht hc)

theorem Later.mem_of_listed {inputs : List TokenResolveInput} (h : Later text inputs db db')
    {t : Token} (ht : t ∈ db.tokens.rows) (hlisted : t.contractAddress.isSome) :
    t ∈ db'.tokens.rows := by
  induction h with
  | refl => exact ht
  | tail _ hstep ih =>
      cases hstep with
      | elsewhere htokens => exact htokens ▸ ih
      | lists hj hlists => exact hlists.mem_of_listed ih hlisted

end Neonfi.Wallet
