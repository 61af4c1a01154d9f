import Neonfi.Lib.Casing
import Neonfi.Lib.Separated
import Neonfi.Portfolios.Model

/-!
# Slugs are canonical

Each replacement of `slugify` leaves letters, digits and separators only, or takes some of the
separators away, so the result is empty or words with a dash between.  Such a text goes through
all of the replacements unchanged.
-/

namespace Neonfi.Portfolios

open Lib

/-- `[a-z0-9]` -/
def slugLetter (c : Char) : Bool := c.isLower || c.isDigit

/-- `[a-z0-9]+(-[a-z0-9]+)*` -/
def slugForm : Language Char := separatedWords slugLetter '-'

/-! ## Characters -/

section Characters

variable {c : Char}

theorem toNat_of_slugLetter (h : slugLetter c = true) :
    48 ≤ c.toNat ∧ c.toNat ≤ 57 ∨ 97 ≤ c.toNat ∧ c.toNat ≤ 122 := by
  unfold slugLetter Char.isLower Char.isDigit at h
  simp only [Bool.or_eq_true, Bool.and_eq_true, decide_eq_true_eq, ge_iff_le,
    UInt32.le_iff_toNat_le] at h
  exact h.symm

theorem slugLetter_dash : slugLetter '-' = false := by decide

theorem slugChar_iff : slugChar c = true ↔ slugLetter c = true ∨ isSpace c = true ∨ c = '-' := by
  unfold slugChar slugLetter
  simp only [Bool.or_eq_true, decide_eq_true_eq, or_assoc]

theorem toNat_of_slug (h : slugLetter c = true ∨ c = '-') :
    c.toNat = 45 ∨ 48 ≤ c.toNat ∧ c.toNat ≤ 57 ∨ 97 ≤ c.toNat ∧ c.toNat ≤ 122 := by
  rcases h with h | rfl
  · exact .inr (toNat_of_slugLetter h)
  · exact .inl rfl

theorem isSpace_of_slug (h : slugLetter c = true ∨ c = '-') : isSpace c = false := by
  have hrange := toNat_of_slug h
  unfold isSpace
  simp only [List.mem_cons, List.not_mem_nil, or_false, Bool.or_eq_false_iff,
    decide_eq_false_iff_not, Bool.and_eq_false_iff]
  omega

/-- A character of a slug is in lower case. -/
theorem toLower_of_slug (h : slugLetter c = true ∨ c = '-') :
    c.toNat < 128 ∧ c.toLower = c := by
  have hrange := toNat_of_slug h
  refine ⟨by omega, ?_⟩
  unfold Char.toLower
  refine dif_neg fun hupper => ?_
  simp only [ge_iff_le, UInt32.le_iff_toNat_le] at hupper
  have hA : 'A'.val.toNat = 65 := rfl
  have hZ : 'Z'.val.toNat = 90 := rfl
  have hval : c.val.toNat = c.toNat := rfl
  omega

end Characters

/-! ## Replacements -/

section Replacements

variable {p : Char → Bool} {cs : List Char} {c : Char}

theorem mem_dashRuns {run : Bool} (h : c ∈ dashRuns p run cs) : c = '-' ∨ c ∈ cs ∧ p c = false := by
  induction cs generalizing run with
  | nil => cases h
  | cons d cs ih =>
      have hrest : ∀ {run}, c ∈ dashRuns p run cs → c = '-' ∨ c ∈ d :: cs ∧ p c = false := by
        intro run hmem
        exact (ih hmem).imp_right fun hc => ⟨List.mem_cons_of_mem d hc.1, hc.2⟩
      rw [dashRuns] at h
      split at h
      · split at h
        · exact hrest h
        · rcases List.mem_cons.mp h with rfl | h
          · exact .inl rfl
          · exact hrest h
      · next hd =>
          rcases List.mem_cons.mp h with rfl | h
          · exact .inr ⟨List.mem_cons_self, Bool.eq_false_iff.mpr hd⟩
          · exact hrest h

/-- Where dashes are replaced too, no two of them stay in a row, and none follows a run. -/
theorem apart_dashRuns (hdash : p '-' = true) (run : Bool) (cs : List Char) :
    (dashRuns p run cs).IsChain (fun a b => a = '-' → b ≠ '-') ∧
      (run = true → (dashRuns p run cs).head? ≠ some '-') := by
  induction cs generalizing run with
  | nil => exact ⟨.nil, nofun⟩
  | cons c cs ih =>
      rw [dashRuns]
      split
      · split
        · exact ⟨(ih true).1, fun _ => (ih true).2 rfl⟩
        · next hrun =>
            refine ⟨(ih true).1.cons fun b hb _ => ?_, fun h => absurd h hrun⟩
            rintro rfl
            exact (ih true).2 rfl hb
      · next hc =>
          have hne : c ≠ '-' := by
            rintro rfl
            exact hc hdash
          refine ⟨(ih false).1.cons fun b _ h => absurd h hne, fun _ h => hne ?_⟩
          exact Option.some.inj h

/-- Nothing to replace. -/
theorem dashRuns_eq_self (h : ∀ c ∈ cs, p c = false) (run : Bool) : dashRuns p run cs = cs := by
  induction cs generalizing run with
  | nil => rfl
  | cons c cs ih =>
      rw [dashRuns, if_neg (by simp [h c List.mem_cons_self]),
        ih fun d hd => h d (List.mem_cons_of_mem c hd)]

/-- Single dashes are replaced by themselves. -/
theorem dashRuns_of_apart (h : cs.IsChain fun a b => a = '-' → b ≠ '-') {run : Bool}
    (hrun : run = true → cs.head? ≠ some '-') : dashRuns (· = '-') run cs = cs := by
  induction cs generalizing run with
  | nil => rfl
  | cons c cs ih =>
      rw [dashRuns]
      by_cases hc : c = '-'
      · subst hc
        have hfalse : run ≠ true := fun h => hrun h rfl
        rw [if_pos (decide_eq_true rfl), if_neg hfalse, ih h.tail]
        intro _ hhead
        obtain ⟨rest, rfl⟩ := List.head?_eq_some_iff.mp hhead
        exact (List.isChain_cons_cons.mp h).1 rfl rfl
      · rw [if_neg (by simpa using hc), @ih h.tail false fun h => nomatch h]

/-- Without its first dash such a text does not begin with one. -/
theorem apart_tail (hapart : cs.IsChain fun a b => a = '-' → b ≠ '-')
    (hhead : cs.head? = some '-') :
    cs.tail.IsChain (fun a b => a = '-' → b ≠ '-') ∧ cs.tail.head? ≠ some '-' := by
  obtain ⟨rest, rfl⟩ := List.head?_eq_some_iff.mp hhead
  refine ⟨hapart.tail, fun hnext => ?_⟩
  obtain ⟨rest, rfl⟩ := List.head?_eq_some_iff.mp hnext
  exact (List.isChain_cons_cons.mp hapart).1 rfl rfl

/-- Without its last dash it does not end with one. -/
theorem apart_dropLast (hapart : cs.IsChain fun a b => a = '-' → b ≠ '-')
    (hlast : cs.getLast? = some '-') :
    cs.dropLast.IsChain (fun a b => a = '-' → b ≠ '-') ∧ cs.dropLast.getLast? ≠ some '-' := by
  obtain ⟨init, rfl⟩ := List.getLast?_eq_some_iff.mp hlast
  rw [List.dropLast_concat]
  obtain ⟨hinit, -, hlink⟩ := List.isChain_append.mp hapart
  exact ⟨hinit, fun hdash => hlink '-' hdash '-' rfl rfl rfl⟩

/-- Dropping the dashes at the ends separates the words. -/
theorem separated_stripDash (hmem : ∀ c ∈ cs, slugLetter c = true ∨ c = '-')
    (hapart : cs.IsChain fun a b => a = '-' → b ≠ '-') :
    Separated slugLetter '-' (stripDash cs) := by
  have hfront : ∃ ds, ds.Sublist cs ∧ ds.IsChain (fun a b => a = '-' → b ≠ '-') ∧
      ds.head? ≠ some '-' ∧
      stripDash cs = if ds.getLast? = some '-' then ds.dropLast else ds := by
    by_cases hhead : cs.head? = some '-'
    · obtain ⟨htail, hnext⟩ := apart_tail hapart hhead
      refine ⟨cs.tail, cs.tail_sublist, htail, hnext, ?_⟩
      unfold stripDash
      simp only [if_pos hhead]
    · refine ⟨cs, List.Sublist.refl cs, hapart, hhead, ?_⟩
      unfold stripDash
      simp only [if_neg hhead]
  obtain ⟨ds, hsub, hds, hhead, hstrip⟩ := hfront
  rw [hstrip]
  split
  · next hlast =>
      refine ⟨fun c hc => hmem c (hsub.subset (List.mem_of_mem_dropLast hc)),
        (apart_dropLast hds hlast).1, fun hfirst => ?_, (apart_dropLast hds hlast).2⟩
      obtain ⟨init, rfl⟩ := List.getLast?_eq_some_iff.mp hlast
      rw [List.dropLast_concat] at hfirst
      apply hhead
      rw [List.head?_append, hfirst]
      rfl
  · next hlast => exact ⟨fun c hc => hmem c (hsub.subset hc), hds, hhead, hlast⟩

theorem stripDash_eq_self (h : Separated slugLetter '-' cs) : stripDash cs = cs := by
  unfold stripDash
  simp only [if_neg h.head, if_neg h.last]

end Replacements

/-! ## Slugs -/

section Slugify

variable (L : LowerCase)

theorem separated_slugify (toLowerCase : String → String) (name : String) :
    Separated slugLetter '-' (slugify toLowerCase name).toList := by
  unfold slugify
  rw [String.toList_ofList]
  refine separated_stripDash (fun c hc => ?_) (apart_dashRuns rfl false _).1
  rcases mem_dashRuns hc with rfl | ⟨hc, hdash⟩
  · exact .inr rfl
  · rcases mem_dashRuns hc with rfl | ⟨hc, hspace⟩
    · cases hdash
    · rcases slugChar_iff.mp (List.mem_filter.mp hc).2 with h | h | h
      · exact .inl h
      · rw [hspace] at h
        cases h
      · exact .inr h

/-- A text in the form of a slug, or an empty one, goes through every replacement unchanged. -/
theorem slugify_of_separated {text : String} (h : Separated slugLetter '-' text.toList) :
    slugify L.toLowerCase text = text := by
  have hspace : ∀ c ∈ text.toList, isSpace c = false := fun c hc => isSpace_of_slug (h.mem c hc)
  have hlower : L.toLowerCase text = text :=
    L.toLowerCase_eq_self fun c hc => toLower_of_slug (h.mem c hc)
  have hdrop : text.toList.dropWhile isSpace = text.toList := by
    refine List.dropWhile_eq_self_iff.mpr fun hpos => ?_
    rw [hspace _ (List.getElem_mem hpos)]
    exact Bool.false_ne_true
  have htrim : text.toList.rdropWhile isSpace = text.toList := by
    refine List.rdropWhile_eq_self_iff.mpr fun hne => ?_
    rw [hspace _ (List.getLast_mem hne)]
    exact Bool.false_ne_true
  have hfilter : text.toList.filter slugChar = text.toList := by
    refine List.filter_eq_self.mpr fun c hc => slugChar_iff.mpr ?_
    exact (h.mem c hc).imp_right .inr
  have hdashes : dashRuns (· = '-') false text.toList = text.toList :=
    dashRuns_of_apart h.apart nofun
  unfold slugify
  dsimp only
  rw [hlower, hdrop, htrim, hfilter, dashRuns_eq_self hspace, hdashes, stripDash_eq_self h,
    String.ofList_toList]

/-- The texts that `slugify` keeps are the slugs and the empty text. -/
theorem slugify_eq_self_iff {text : String} :
    slugify L.toLowerCase text = text ↔ text = "" ∨ text.toList ∈ slugForm := by
  constructor
  · intro h
    have hseparated := separated_slugify L.toLowerCase text
    rw [h] at hseparated
    by_cases hempty : text = ""
    · exact .inl hempty
    · refine .inr (hseparated.mem_separatedWords fun hnil => hempty ?_)
      exact String.toList_eq_nil_iff.mp hnil
  · rintro (rfl | hform)
    · exact slugify_of_separated L ⟨nofun, .nil, nofun, nofun⟩
    · exact slugify_of_separated L (separated_of_mem_separatedWords slugLetter_dash hform)

theorem slugify_slugify (name : String) :
    slugify L.toLowerCase (slugify L.toLowerCase name) = slugify L.toLowerCase name :=
  slugify_of_separated L (separated_slugify L.toLowerCase name)

/-! ## Names with one slug -/

/-- The comparison of `assertSlugAvailable`. -/
def SameSlug (name name' : String) : Prop :=
  slugify L.toLowerCase name = slugify L.toLowerCase name'

theorem equivalence_sameSlug : Equivalence (SameSlug L) where
  refl _ := rfl
  symm h := h.symm
  trans h h' := h.trans h'

/-- A name is taken if it has a slug, and another portfolio of the user has a name with the same
one. -/
theorem assertSlugAvailable_eq (T : PortfolioTable) (userId : ℕ) (name : String)
    (excludeId : Option ℕ) :
    assertSlugAvailable T userId L.toLowerCase name excludeId = .error .nameTaken ↔
      slugify L.toLowerCase name ≠ "" ∧ ∃ p ∈ T.rows, p.userId = userId ∧
        some p.id ≠ excludeId ∧ SameSlug L p.name name := by
  have htaken : ((findUserPortfolioNames T userId).any fun p =>
        some p.1 ≠ excludeId ∧ slugify L.toLowerCase p.2 = slugify L.toLowerCase name) = true ↔
      ∃ p ∈ T.rows, p.userId = userId ∧ some p.id ≠ excludeId ∧ SameSlug L p.name name := by
    unfold findUserPortfolioNames SameSlug
    simp [List.any_eq_true]
  unfold assertSlugAvailable
  dsimp only
  by_cases hempty : slugify L.toLowerCase name = ""
  · rw [if_pos hempty]
    exact iff_of_false (by decide) fun h => h.1 hempty
  · rw [if_neg hempty]
    split
    · next h => exact iff_of_true rfl ⟨hempty, htaken.mp h⟩
    · next h => exact iff_of_false nofun fun h' => h (htaken.mpr h'.2)

theorem assertSlugAvailable_congr {name name' : String} (h : SameSlug L name name')
    (T : PortfolioTable) (userId : ℕ) (excludeId : Option ℕ) :
    assertSlugAvailable T userId L.toLowerCase name excludeId =
      assertSlugAvailable T userId L.toLowerCase name' excludeId := by
  unfold assertSlugAvailable
  rw [h]

/-- Every slug is empty or has the form of one, and is its own slug.  Having the same slug is an
equivalence of names that relates a name to its slug, and `assertSlugAvailable` compares the names
of the user's other portfolios by it. -/
theorem slugs_canonical :
    (∀ name, slugify L.toLowerCase name = "" ∨ (slugify L.toLowerCase name).toList ∈ slugForm) ∧
      (∀ name, slugify L.toLowerCase (slugify L.toLowerCase name) = slugify L.toLowerCase name) ∧
      Equivalence (SameSlug L) ∧ (∀ name, SameSlug L name (slugify L.toLowerCase name)) ∧
      (∀ T userId name excludeId,
        assertSlugAvailable T userId L.toLowerCase name excludeId = .error .nameTaken ↔
          slugify L.toLowerCase name ≠ "" ∧ ∃ p ∈ T.rows, p.userId = userId ∧
            some p.id ≠ excludeId ∧ SameSlug L p.name name) ∧
      ∀ T userId name name' excludeId, SameSlug L name name' →
        assertSlugAvailable T userId L.toLowerCase name excludeId =
          assertSlugAvailable T userId L.toLowerCase name' excludeId := by
  refine ⟨fun name => ?_, slugify_slugify L, equivalence_sameSlug L,
    fun name => (slugify_slugify L name).symm, assertSlugAvailable_eq L, ?_⟩
  · exact (slugify_eq_self_iff L).mp (slugify_slugify L name)
  · exact fun T userId name name' excludeId h => assertSlugAvailable_congr L h T userId excludeId

example : slugify LowerCase.ascii.toLowerCase " -My Wallet – #2! " = "my-wallet-2" := by
  decide +kernel

end Slugify

end Neonfi.Portfolios
