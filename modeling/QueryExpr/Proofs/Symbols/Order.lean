/-
The one order of a table's entries.

Keywords increase in byte order.  Of two symbols the larger one comes first, and equally
large ones increase in byte order.  Each order is strict and tells any two texts apart, so a
list in it holds nothing twice and is settled by what it holds.  Putting each entry in its place
therefore gives the same list as sorting them all and dropping repeats.  With that a table is
settled by its entries, in whatever order and however often they were given.
-/
import Mathlib.Data.List.Destutter
import Mathlib.Data.List.Sort
import QueryExpr.Proofs.Symbols.Longest

namespace QueryExpr

namespace Text

theorem bytes_inj {a b : String} : bytes a = bytes b ↔ a = b := by
  constructor
  · intro h
    have hdata : a.toUTF8.data = b.toUTF8.data := Array.toList_inj.mp h
    exact String.toByteArray_inj.mp (ByteArray.ext hdata)
  · rintro rfl
    rfl

def IsLetter (c : Char) : Prop := 'A' ≤ c ∧ c ≤ 'Z' ∨ 'a' ≤ c ∧ c ≤ 'z'

/-- The text has the shape `[A-Za-z_][A-Za-z0-9_]*`. -/
def WordShaped (text : List Char) : Prop :=
  ∃ first others, text = first :: others ∧ (IsLetter first ∨ first = '_') ∧
    ∀ c ∈ others, IsLetter c ∨ '0' ≤ c ∧ c ≤ '9' ∨ c = '_'

theorem isUpper_iff {c : Char} : c.isUpper = true ↔ 'A' ≤ c ∧ c ≤ 'Z' := decide_eq_true_iff

theorem isLower_iff {c : Char} : c.isLower = true ↔ 'a' ≤ c ∧ c ≤ 'z' := by
  show (decide ('a'.val ≤ c.val) && decide (c.val ≤ 'z'.val)) = true ↔ _
  rw [Bool.and_eq_true, decide_eq_true_iff, decide_eq_true_iff]
  rfl

theorem isAlpha_iff {c : Char} : c.isAlpha = true ↔ IsLetter c := by
  show (c.isUpper || c.isLower) = true ↔ _
  rw [Bool.or_eq_true, isUpper_iff, isLower_iff]
  rfl

theorem isWord_iff {text : List Char} : isWord text = true ↔ WordShaped text := by
  have hdigit : ∀ c : Char, c.isDigit = true ↔ '0' ≤ c ∧ c ≤ '9' := by
    intro c
    simp [Char.isDigit, Char.le_def]
  have hstart : ∀ c, isWordStart c = true ↔ IsLetter c ∨ c = '_' := by
    intro c
    rw [isWordStart, Bool.or_eq_true, isAlpha_iff, beq_iff_eq]
  have hpart : ∀ c, isWordPart c = true ↔ IsLetter c ∨ '0' ≤ c ∧ c ≤ '9' ∨ c = '_' := by
    intro c
    rw [isWordPart, Char.isAlphanum, Bool.or_eq_true, Bool.or_eq_true, isAlpha_iff, hdigit,
      beq_iff_eq, or_assoc]
  cases text with
  | nil => simp [isWord, WordShaped]
  | cons first others =>
    simp only [isWord, Bool.and_eq_true, List.all_eq_true, hstart, hpart, WordShaped]
    constructor
    · rintro ⟨hfirst, hothers⟩
      exact ⟨first, others, rfl, hfirst, hothers⟩
    · rintro ⟨_, _, ⟨⟩, hfirst, hothers⟩
      exact ⟨hfirst, hothers⟩

theorem toLower_of_isUpper_eq_false {c : Char} (h : c.isUpper = false) : c.toLower = c :=
  dif_neg (of_decide_eq_false h)

theorem isLower_toLower {c : Char} (h : c.isUpper = true) : c.toLower.isLower = true := by
  have hrange : c.val ≥ 'A'.val ∧ c.val ≤ 'Z'.val := of_decide_eq_true h
  have hval : c.toLower.val = c.val + ('a'.val - 'A'.val) := congrArg Char.val (dif_pos hrange)
  rw [isLower_iff, Char.le_def, Char.le_def, hval]
  simp [UInt32.le_iff_toNat_le] at hrange ⊢
  omega

theorem isUpper_eq_false_of_isLower {c : Char} (h : c.isLower = true) : c.isUpper = false := by
  rw [isLower_iff] at h
  rw [← Bool.not_eq_true, isUpper_iff]
  rintro ⟨-, hlast⟩
  exact absurd (Char.le_trans h.1 hlast) (by decide)

theorem toLower_toLower (c : Char) : c.toLower.toLower = c.toLower := by
  by_cases hupper : c.isUpper = true
  · exact toLower_of_isUpper_eq_false (isUpper_eq_false_of_isLower (isLower_toLower hupper))
  · have hsame := toLower_of_isUpper_eq_false (Bool.eq_false_iff.mpr hupper)
    rw [hsame, hsame]

/-- A class with all letters of ASCII does not tell a capital from the small letter. -/
theorem apply_toLower_of_letters {p : Char → Bool} (hp : ∀ c, c.isAlpha = true → p c = true)
    (c : Char) : p c.toLower = p c := by
  by_cases hupper : c.isUpper = true
  · have hletter := isAlpha_iff.mpr (Or.inl (isUpper_iff.mp hupper))
    have hlower := isAlpha_iff.mpr (Or.inr (isLower_iff.mp (isLower_toLower hupper)))
    rw [hp c hletter, hp c.toLower hlower]
  · rw [toLower_of_isUpper_eq_false (Bool.eq_false_iff.mpr hupper)]

/-- Whether a text is a word does not depend on its case. -/
theorem isWord_lower (s : String) : isWord (lower s).toList = isWord s.toList := by
  have hstart := apply_toLower_of_letters (p := isWordStart) fun c hc => by simp [isWordStart, hc]
  have hpart := apply_toLower_of_letters (p := isWordPart) fun c hc => by
    simp [isWordPart, Char.isAlphanum, hc]
  rw [lower, String.toList_ofList]
  cases s.toList with
  | nil => rfl
  | cons c rest =>
    have hrest : isWordPart ∘ Char.toLower = isWordPart := funext hpart
    rw [List.map_cons, isWord, isWord, hstart, List.all_map, hrest]

theorem lower_lower (s : String) : lower (lower s) = lower s := by
  have hmap : Char.toLower ∘ Char.toLower = Char.toLower := funext toLower_toLower
  rw [lower, lower, String.toList_ofList, List.map_map, hmap]

end Text

namespace SymbolTable

def KeywordOrder (a b : String) : Prop := Text.bytes a < Text.bytes b

def SymbolOrder (a b : String) : Prop :=
  b.utf8ByteSize < a.utf8ByteSize ∨
    a.utf8ByteSize = b.utf8ByteSize ∧ Text.bytes a < Text.bytes b

theorem keywordBefore_iff {a b : String} : keywordBefore a b = true ↔ KeywordOrder a b :=
  decide_eq_true_iff

theorem symbolBefore_iff {a b : String} : symbolBefore a b = true ↔ SymbolOrder a b := by
  simp [symbolBefore, SymbolOrder]

/-- Of two different texts one comes before the other in bytes. -/
theorem KeywordOrder.of_not {a b : String} (hne : a ≠ b) (h : ¬ KeywordOrder a b) :
    KeywordOrder b a := by
  have hbytes : Text.bytes b ≠ Text.bytes a := fun heq => hne (Text.bytes_inj.mp heq).symm
  exact Std.lt_of_le_of_ne (List.not_lt.mp h) hbytes

theorem SymbolOrder.of_not {a b : String} (hne : a ≠ b) (h : ¬ SymbolOrder a b) :
    SymbolOrder b a := by
  unfold SymbolOrder at h ⊢
  have hbytes := KeywordOrder.of_not hne
  unfold KeywordOrder at hbytes
  rcases Nat.lt_trichotomy a.utf8ByteSize b.utf8ByteSize with hlt | heq | hgt
  · exact Or.inl hlt
  · exact Or.inr ⟨heq.symm, hbytes fun hlt => h (Or.inr ⟨heq, hlt⟩)⟩
  · exact absurd (Or.inl hgt) h

instance : Std.Irrefl KeywordOrder := ⟨fun a => List.lt_irrefl (Text.bytes a)⟩

instance : Std.Antisymm KeywordOrder := ⟨fun _ _ hab hba => absurd hba (List.lt_asymm hab)⟩

instance : Std.Irrefl SymbolOrder :=
  ⟨fun a h => h.elim (Nat.lt_irrefl _) fun h => List.lt_irrefl (Text.bytes a) h.2⟩

instance : Std.Antisymm SymbolOrder := by
  refine ⟨fun a b hab hba => ?_⟩
  unfold SymbolOrder at hab hba
  rcases hab with hab | ⟨hab, hless⟩
  · omega
  · rcases hba with hba | ⟨-, hmore⟩
    · omega
    · exact absurd hmore (List.lt_asymm hless)

instance : IsTrans String KeywordOrder := ⟨fun _ _ _ => List.lt_trans⟩

instance : IsTrans String SymbolOrder := by
  refine ⟨fun a b c hab hbc => ?_⟩
  unfold SymbolOrder at *
  rcases hab with hab | ⟨hab, hless⟩
  · omega
  · rcases hbc with hbc | ⟨hbc, hless'⟩
    · omega
    · exact Or.inr ⟨hab.trans hbc, List.lt_trans hless hless'⟩

instance : Std.Trichotomous KeywordOrder :=
  ⟨fun _ _ hab hba => by_contra fun hne => hba (.of_not hne hab)⟩

instance : Std.Trichotomous SymbolOrder :=
  ⟨fun _ _ hab hba => by_contra fun hne => hba (.of_not hne hab)⟩

/-- The entries in order, as often as they were given. -/
def sort (before : String → String → Bool) (entries : List String) : List String :=
  entries.mergeSort fun a b => !before b a

section Sorting

variable {before : String → String → Bool} {R : String → String → Prop} {entries : List String}

theorem of_not_of_not [Std.Trichotomous R] {a b : String} (hab : ¬ R a b) (hne : a ≠ b) : R b a :=
  by_contra fun hba => hne (Std.Trichotomous.trichotomous a b hab hba)

variable [IsTrans String R] [Std.Trichotomous R]

theorem pairwise_arrange_of_iff (hR : ∀ a b, before a b = true ↔ R a b)
    (entries : List String) : (arrange before entries).Pairwise R := by
  refine pairwise_arrange IsTrans.trans (fun a b => (hR a b).mp) ?_ entries
  intro a b hne hbehind
  exact of_not_of_not (fun h => Bool.eq_false_iff.mp hbehind ((hR a b).mpr h)) hne

variable [Std.Irrefl R] [Std.Antisymm R]

/-- No entry comes before one that stands in front of it. -/
theorem pairwise_sort (hR : ∀ a b, before a b = true ↔ R a b) (entries : List String) :
    (sort before entries).Pairwise fun a b => ¬ R b a := by
  have hle : ∀ a b, (!before b a) = true ↔ ¬ R b a := by
    intro a b
    rw [Bool.not_eq_true', ← Bool.not_eq_true, hR]
  have htrans : ∀ a b c, (!before b a) = true → (!before c b) = true → (!before c a) = true := by
    intro a b c hab hbc
    rw [hle] at *
    intro hca
    by_cases heq : a = b
    · exact hbc (heq ▸ hca)
    · exact hbc (trans_of R hca (of_not_of_not hab (Ne.symm heq)))
  have htotal : ∀ a b, (!before b a || !before a b) = true := by
    intro a b
    rw [Bool.or_eq_true, hle, hle]
    by_cases hba : R b a
    · refine Or.inr fun hab => ?_
      obtain rfl := Std.Antisymm.antisymm a b hab hba
      exact Std.Irrefl.irrefl a hab
    · exact Or.inl hba
  exact (List.pairwise_mergeSort htrans htotal entries).imp fun {a b} => (hle a b).mp

/-- Putting each entry in its place and leaving out repeats gives what is left of the sorted
entries when those equal to the one in front of them are dropped. -/
theorem arrange_eq_destutter (hR : ∀ a b, before a b = true ↔ R a b) (entries : List String) :
    arrange before entries = (sort before entries).destutter (· ≠ ·) := by
  have hsorted := pairwise_sort hR entries
  have : Std.Antisymm fun a b => ¬ R b a :=
    ⟨fun a b hab hba => by_contra fun hne => hba (of_not_of_not hab (Ne.symm hne))⟩
  rw [hsorted.destutter_eq_dedup]
  have hstrict : (sort before entries).dedup.Pairwise R := by
    have hboth := (hsorted.sublist (List.dedup_sublist _)).and (List.nodup_dedup _)
    exact hboth.imp fun ⟨hba, hne⟩ => of_not_of_not hba (Ne.symm hne)
  refine (pairwise_arrange_of_iff hR entries).eq_of_mem_iff hstrict fun s => ?_
  rw [mem_arrange, List.mem_dedup, sort, List.mem_mergeSort]

/-- Entries without repeats are only sorted. -/
theorem arrange_eq_sort (hR : ∀ a b, before a b = true ↔ R a b) (h : entries.Nodup) :
    arrange before entries = sort before entries := by
  have hnodup : (sort before entries).Nodup := (List.mergeSort_perm entries _).nodup_iff.mpr h
  rw [arrange_eq_destutter hR, List.destutter_of_isChain _ _ hnodup.isChain]

end Sorting

/-- The default table repeats no entry, so it is made by sorting alone. -/
theorem default_eq_sort :
    default = ⟨sort keywordBefore defaultKeywords, sort symbolBefore defaultSymbols⟩ := by
  have hkeywords : defaultKeywords.Nodup := by decide
  have hsymbols : defaultSymbols.Nodup := by decide
  rw [default, arrange_eq_sort @keywordBefore_iff hkeywords,
    arrange_eq_sort @symbolBefore_iff hsymbols]

theorem isSymbol_iff {s : String} :
    isSymbol s = true ↔ s ≠ "" ∧ ∀ c ∈ s.toList, Text.isBlank c = false := by
  simp [isSymbol]

/-- The entries stand in order and are what a table may hold. -/
structure IsCanonical (t : SymbolTable) : Prop where
  keywords_ordered : t.keywords.Pairwise KeywordOrder
  symbols_ordered : t.symbols.Pairwise SymbolOrder
  keywords_lower : ∀ k ∈ t.keywords, Text.lower k = k
  keywords_wordShaped : ∀ k ∈ t.keywords, Text.WordShaped k.toList
  symbols_ne : ∀ s ∈ t.symbols, s ≠ ""
  symbols_blankless : ∀ s ∈ t.symbols, ∀ c ∈ s.toList, Text.isBlank c = false

section Entries

variable {keywords symbols keywords' symbols' : List String} {t t' : SymbolTable}

/-- A table is its words made small and its symbols, each sorted, with an entry that is equal to
the one in front of it dropped. -/
theorem ofEntries_eq_destutter (h : ofEntries keywords symbols = .ok t) :
    t.keywords = (sort keywordBefore (keywords.map Text.lower)).destutter (· ≠ ·) ∧
      t.symbols = (sort symbolBefore symbols).destutter (· ≠ ·) := by
  obtain ⟨-, -, rfl⟩ := ofEntries_eq_ok_iff.mp h
  exact ⟨arrange_eq_destutter @keywordBefore_iff _,
    arrange_eq_destutter @symbolBefore_iff _⟩

theorem mem_keywords_iff (h : ofEntries keywords symbols = .ok t) {w : String} :
    w ∈ t.keywords ↔ ∃ k ∈ keywords, Text.lower k = w := by
  obtain ⟨-, -, rfl⟩ := ofEntries_eq_ok_iff.mp h
  rw [mem_arrange, List.mem_map]

theorem mem_symbols_iff (h : ofEntries keywords symbols = .ok t) {s : String} :
    s ∈ t.symbols ↔ s ∈ symbols := by
  obtain ⟨-, -, rfl⟩ := ofEntries_eq_ok_iff.mp h
  exact mem_arrange

theorem isCanonical_of_ofEntries (h : ofEntries keywords symbols = .ok t) : t.IsCanonical := by
  have hkeyword := fun {w} => mem_keywords_iff h (w := w)
  have hsymbol := fun {s} => mem_symbols_iff h (s := s)
  obtain ⟨hwords, hsymbols, rfl⟩ := ofEntries_eq_ok_iff.mp h
  constructor
  case keywords_ordered => exact pairwise_arrange_of_iff @keywordBefore_iff _
  case symbols_ordered => exact pairwise_arrange_of_iff @symbolBefore_iff _
  case keywords_lower =>
    intro w hw
    obtain ⟨k, -, rfl⟩ := hkeyword.mp hw
    exact Text.lower_lower k
  case keywords_wordShaped =>
    intro w hw
    obtain ⟨k, hk, rfl⟩ := hkeyword.mp hw
    exact Text.isWord_iff.mp (hwords k hk)
  case symbols_ne => exact fun s hs => (isSymbol_iff.mp (hsymbols s (hsymbol.mp hs))).1
  case symbols_blankless => exact fun s hs => (isSymbol_iff.mp (hsymbols s (hsymbol.mp hs))).2

theorem Obtained.isCanonical (h : t.Obtained) : t.IsCanonical := by
  obtain ⟨keywords, symbols, h⟩ := h.ofEntries
  exact isCanonical_of_ofEntries h

/-- Keywords are small, so the one that a word is found as is the word made small. -/
theorem IsCanonical.keyword?_eq_some_iff (h : t.IsCanonical) {word k : String} :
    t.keyword? word = some k ↔ k = Text.lower word ∧ k ∈ t.keywords := by
  have hfound : ∀ {k}, t.keyword? word = some k → k = Text.lower word ∧ k ∈ t.keywords := by
    intro k hk
    rw [keyword?] at hk
    have hmem := List.mem_of_find?_eq_some hk
    have hsame := List.find?_some hk
    exact ⟨(h.keywords_lower k hmem).symm.trans (of_decide_eq_true hsame), hmem⟩
  constructor
  · exact hfound
  · intro ⟨hk, hmem⟩
    cases hword : t.keyword? word with
    | none =>
      have hnot := List.find?_eq_none.mp hword k hmem
      rw [decide_eq_true_eq, h.keywords_lower k hmem] at hnot
      exact absurd hk hnot
    | some k' => rw [hk, (hfound hword).1]

/-- Tables in order are equal when they hold the same. -/
theorem IsCanonical.eq_of_mem_iff (h : t.IsCanonical) (h' : t'.IsCanonical)
    (hkeywords : ∀ k, k ∈ t.keywords ↔ k ∈ t'.keywords)
    (hsymbols : ∀ s, s ∈ t.symbols ↔ s ∈ t'.symbols) : t = t' := by
  have hk := h.keywords_ordered.eq_of_mem_iff h'.keywords_ordered hkeywords
  have hs := h.symbols_ordered.eq_of_mem_iff h'.symbols_ordered hsymbols
  cases t
  cases t'
  simp_all

/-- A word that is none or a symbol that is none is refused, and nothing else is. -/
theorem ofEntries_eq_error_iff :
    (∃ e, ofEntries keywords symbols = .error e) ↔
      (∃ k ∈ keywords, ¬ Text.WordShaped (Text.lower k).toList) ∨
        ∃ s ∈ symbols, s = "" ∨ ∃ c ∈ s.toList, Text.isBlank c = true := by
  have hok : (∃ t, ofEntries keywords symbols = .ok t) ↔
      (∀ k ∈ keywords, Text.WordShaped (Text.lower k).toList) ∧
        ∀ s ∈ symbols, s ≠ "" ∧ ∀ c ∈ s.toList, Text.isBlank c = false := by
    simp only [ofEntries_eq_ok_iff, exists_and_left, exists_eq, and_true, Text.isWord_iff,
      isSymbol_iff]
  have herror : (∃ e, ofEntries keywords symbols = .error e) ↔
      ¬ ∃ t, ofEntries keywords symbols = .ok t := by
    cases ofEntries keywords symbols <;> simp
  have hsymbol : ∀ s : String, (s = "" ∨ ∃ c ∈ s.toList, Text.isBlank c = true) ↔
      ¬ (s ≠ "" ∧ ∀ c ∈ s.toList, Text.isBlank c = false) := by
    intro s
    simp [imp_iff_not_or]
  rw [herror, hok, not_and_or]
  simp only [hsymbol, not_forall, exists_prop]

/-- Whether entries make a table, and which table they make, is settled by what they are:
neither their order, nor repeating them, nor the case of keywords matters. -/
theorem ofEntries_canonical :
    (∀ keywords symbols, (∃ e, ofEntries keywords symbols = .error e) ↔
      (∃ k ∈ keywords, ¬ Text.WordShaped (Text.lower k).toList) ∨
        ∃ s ∈ symbols, s = "" ∨ ∃ c ∈ s.toList, Text.isBlank c = true) ∧
    (∀ keywords symbols t, ofEntries keywords symbols = .ok t →
      t.keywords.Pairwise KeywordOrder ∧
      (∀ w, w ∈ t.keywords ↔ ∃ k ∈ keywords, Text.lower k = w) ∧
      t.symbols.Pairwise SymbolOrder ∧ t.symbols.Nodup ∧
      ∀ s, s ∈ t.symbols ↔ s ∈ symbols) ∧
    (∀ t, Obtained t → t.IsCanonical) ∧
    ∀ keywords symbols keywords' symbols' t t', ofEntries keywords symbols = .ok t →
      ofEntries keywords' symbols' = .ok t' →
      (∀ w, (∃ k ∈ keywords, Text.lower k = w) ↔ ∃ k ∈ keywords', Text.lower k = w) →
      (∀ s, s ∈ symbols ↔ s ∈ symbols') → t = t' := by
  refine ⟨fun _ _ => ofEntries_eq_error_iff, ?_, fun _ ht => ht.isCanonical, ?_⟩
  · intro keywords symbols t h
    have ht := isCanonical_of_ofEntries h
    exact ⟨ht.keywords_ordered, fun _ => mem_keywords_iff h, ht.symbols_ordered,
      ht.symbols_ordered.nodup, fun _ => mem_symbols_iff h⟩
  · intro keywords symbols keywords' symbols' t t' h h' hkeywords hsymbols
    refine (isCanonical_of_ofEntries h).eq_of_mem_iff (isCanonical_of_ofEntries h') ?_ ?_
    · intro w
      rw [mem_keywords_iff h, mem_keywords_iff h', hkeywords]
    · intro s
      rw [mem_symbols_iff h, mem_symbols_iff h', hsymbols]

/-- The larger symbol comes first, and a symbol or a keyword given again counts once. -/
theorem ofEntries_canonical_repeated :
    ofEntries ["Or", "and", "OR"] ["é", "<", "<=", "é"] = .ok ⟨["and", "or"], ["<=", "é", "<"]⟩ ∧
      (⟨["and", "or"], ["<=", "é", "<"]⟩ : SymbolTable).IsCanonical ∧
      (∃ t, ofEntries ["or", "AND"] ["<=", "é", "<"] = .ok t ∧
        t = ⟨["and", "or"], ["<=", "é", "<"]⟩) ∧
      ∃ e, ofEntries ["or"] ["<", "< ="] = .error e := by
  obtain ⟨herror, -, hcanonical, hsame⟩ := ofEntries_canonical
  have hfirst : ofEntries ["Or", "and", "OR"] ["é", "<", "<=", "é"] =
      .ok ⟨["and", "or"], ["<=", "é", "<"]⟩ := by decide +kernel
  have hsecond : ofEntries ["or", "AND"] ["<=", "é", "<"] =
      .ok ⟨["and", "or"], ["<=", "é", "<"]⟩ := by decide +kernel
  have hblank : ∃ s ∈ ["<", "< ="], s = "" ∨ ∃ c ∈ s.toList, Text.isBlank c = true :=
    ⟨"< =", by decide, Or.inr ⟨' ', by decide, by decide⟩⟩
  refine ⟨hfirst, hcanonical _ (.entries hfirst), ⟨_, hsecond, ?_⟩,
    (herror ["or"] ["<", "< ="]).mpr (Or.inr hblank)⟩
  apply hsame _ _ _ _ _ _ hsecond hfirst
  · intro w
    have hor : Text.lower "Or" = "or" ∧ Text.lower "OR" = "or" ∧ Text.lower "or" = "or" := by
      decide +kernel
    have hand : Text.lower "and" = "and" ∧ Text.lower "AND" = "and" := by decide +kernel
    simp only [List.mem_cons, List.not_mem_nil, or_false, exists_eq_or_imp, exists_eq_left, hor,
      hand]
    constructor
    · rintro (rfl | rfl) <;> simp
    · rintro (rfl | rfl | rfl) <;> simp
  · intro s
    simp only [List.mem_cons, List.not_mem_nil, or_false]
    constructor
    · rintro (rfl | rfl | rfl) <;> simp
    · rintro (rfl | rfl | rfl | rfl) <;> simp

end Entries

end SymbolTable
end QueryExpr
