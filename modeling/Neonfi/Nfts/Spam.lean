import Neonfi.Nfts.Import

/-!
# The spam verdict

`classifyNftSpam` combines the allowlist, the blocklist, the flags of the providers, the number of
items that are held of a contract, and the texts of an item.
-/

namespace Neonfi.Nfts

/-! ## Texts -/

/-- A place in a text: the character before it, and what follows. -/
abbrev Spot := Option Char × List Char

/-- The places where a match that starts at a place may end. -/
abbrev Pattern := Spot → List Spot

namespace Pattern

def char (p : Char → Bool) : Pattern
  | (_, []) => []
  | (_, c :: rest) => if p c then [(some c, rest)] else []

def seq (ps : List Pattern) : Pattern := fun spot =>
  ps.foldl (fun spots p => spots.flatMap p) [spot]

def oneOf (ps : List Pattern) : Pattern := fun spot => ps.flatMap fun p => p spot

def optional (p : Pattern) : Pattern := fun spot => spot :: p spot

def manyFrom (p : Char → Bool) : Option Char → List Char → List Spot
  | before, [] => [(before, [])]
  | before, c :: rest => (before, c :: rest) :: if p c then manyFrom p (some c) rest else []

/-- `[..]*`. -/
def many (p : Char → Bool) : Pattern := fun spot => manyFrom p spot.1 spot.2

/-- A text, without regard to the case of its ASCII letters. -/
def literal (s : String) : Pattern := seq (s.toList.map fun c => char fun d => d.toLower = c)

def isWordChar (c : Char) : Bool := c.isAlphanum || c == '_'

/-- `\b`. -/
def wordBoundary : Pattern := fun spot =>
  if spot.1.any isWordChar ≠ spot.2.head?.any isWordChar then [spot] else []

/-- `RegExp.prototype.test`: a match that starts anywhere. -/
def testFrom (p : Pattern) : Option Char → List Char → Bool
  | before, [] => !(p (before, [])).isEmpty
  | before, c :: rest => !(p (before, c :: rest)).isEmpty || testFrom p (some c) rest

def test (p : Pattern) (text : String) : Bool := p.testFrom none text.toList

end Pattern

open Pattern

/-- The white space of `\s` and of `trim`. -/
def isSpace (c : Char) : Bool :=
  let n := c.toNat
  (9 ≤ n && n ≤ 13) || (0x2000 ≤ n && n ≤ 0x200A) ||
    [0x20, 0xA0, 0x1680, 0x2028, 0x2029, 0x202F, 0x205F, 0x3000, 0xFEFF].contains n

def trim (s : String) : String :=
  String.ofList (((s.toList.dropWhile isSpace).reverse.dropWhile isSpace).reverse)

def isHostChar (c : Char) : Bool := c.isAlphanum || c == '-'

/-- `\b` on both sides. -/
def wholeWord (p : Pattern) : Pattern := seq [wordBoundary, p, wordBoundary]

def plural (s : String) : Pattern := wholeWord (seq [literal s, optional (literal "s")])

def SPAM_TEXT_PATTERNS : List Pattern :=
  [seq [literal "http", optional (literal "s"), literal "://"],
    seq [wordBoundary, literal "www.", char isHostChar],
    wholeWord
      (seq [char isHostChar, char isHostChar, many isHostChar, literal ".",
        oneOf (["com", "io", "xyz", "net", "org", "app", "fi", "vip", "club", "life", "store", "cc",
          "top", "win", "gift", "finance", "site", "online", "claim", "link", "info", "pro",
          "gg"].map literal)]),
    wholeWord
      (seq [literal "claim", optional (oneOf (["ing", "able", "ed", "s"].map literal))]),
    plural "reward", plural "voucher", plural "airdrop", plural "giveaway",
    wholeWord (literal "redeem"), wholeWord (literal "visit"), wholeWord (literal "eligible"),
    seq [literal "$", optional (char isSpace), char Char.isDigit],
    wholeWord
      (seq [char Char.isDigit, many fun c => c.isDigit || c == ',' || c == '.',
        optional (char isSpace),
        oneOf (["usd", "usdt", "usdc", "eth", "bnb", "matic", "dai", "busd"].map literal)])]

/-- The name and the collection together trip a pattern. -/
def isHeuristicNftSpam (name collectionName : Option String) : Bool :=
  let text := trim (name.getD "" ++ " " ++ collectionName.getD "")
  text ≠ "" && SPAM_TEXT_PATTERNS.any fun p => p.test text

/-! ## The verdict -/

/-- Positions, names and badges that no signal may hide. -/
def LEGIT_CONTRACTS : List String :=
  ["0xc36442b4a4522e871399cd717abdd847ab11fe88", "0xd4416b13d2b3a9abae7acd5d6c2bbdbe25686401",
    "0x57f1887a8bf19b14fc0df6fd9b2acc9af147ea85", "0x22c1f6050e56d2876009903609a2cc3fef83b415"]

def KNOWN_SPAM_CONTRACTS : List String :=
  ["0xbdead093d03758772fc2f0dd6d836f0df6bdb6e7", "0x248e21b0aa161efe3045e3d067d972cd6a01d1b5"]

section Verdict

variable (text : Ledger.Js)

def isLegitContract (contractAddress : String) : Bool :=
  text.toLowerCase contractAddress ∈ LEGIT_CONTRACTS

def isKnownSpamContract (contractAddress : String) : Bool :=
  text.toLowerCase contractAddress ∈ KNOWN_SPAM_CONTRACTS

/-- The allowlist comes first. -/
def classifyNftSpam (bulkSpamMin : ℕ) (s : SpamSignals) : Bool :=
  if isLegitContract text s.contractAddress then false
  else if isKnownSpamContract text s.contractAddress then true
  else if s.possibleSpam then true
  else if s.spamContract then true
  else if bulkSpamMin ≤ s.heldCount then true
  else isHeuristicNftSpam s.name s.collectionName

/-- One of the lists decides about the contract. -/
def Listed (spamContracts : List String) (contractAddress : String) : Prop :=
  isLegitContract text contractAddress = true ∨ isKnownSpamContract text contractAddress = true ∨
    text.toLowerCase contractAddress ∈ spamContracts

variable {text} {bulkSpamMin : ℕ} {s t : SpamSignals}

/-- Where a list decides, no other signal matters. -/
theorem classifyNftSpam_of_listed {spamContracts : List String}
    (hcontract : s.contractAddress = t.contractAddress)
    (hs : s.spamContract = decide (text.toLowerCase s.contractAddress ∈ spamContracts))
    (ht : t.spamContract = decide (text.toLowerCase t.contractAddress ∈ spamContracts))
    (h : Listed text spamContracts s.contractAddress) :
    classifyNftSpam text bulkSpamMin s = classifyNftSpam text bulkSpamMin t := by
  unfold classifyNftSpam
  rw [hs, ht, ← hcontract]
  rcases h with hlegit | hknown | hspam
  · simp [hlegit]
  · simp [hknown]
  · simp [hspam]

/-- Elsewhere a flag, the number of held items or the texts make spam. -/
theorem classifyNftSpam_iff {spamContracts : List String}
    (hs : s.spamContract = decide (text.toLowerCase s.contractAddress ∈ spamContracts))
    (h : ¬ Listed text spamContracts s.contractAddress) :
    classifyNftSpam text bulkSpamMin s = true ↔
      s.possibleSpam = true ∨ bulkSpamMin ≤ s.heldCount ∨
        isHeuristicNftSpam s.name s.collectionName = true := by
  unfold Listed at h
  obtain ⟨hlegit, hrest⟩ := not_or.mp h
  obtain ⟨hknown, hspam⟩ := not_or.mp hrest
  have hunlisted : ¬ s.spamContract = true := by simpa [hs] using hspam
  unfold classifyNftSpam
  rw [if_neg hlegit, if_neg hknown, if_neg hunlisted]
  by_cases hflag : s.possibleSpam
  · simp [hflag]
  · by_cases hbulk : bulkSpamMin ≤ s.heldCount
    · simp [hflag, hbulk]
    · simp [hflag, hbulk]

end Verdict

example : isHeuristicNftSpam (some "Visit apex-drop.xyz") none = true := by decide +kernel

example : isHeuristicNftSpam (some "Visitors of Imma Degen") (some "Proof") = false := by
  decide +kernel

end Neonfi.Nfts
