import Launcher.Proofs.Query.Routing
import Launcher.Ranking

/-!
# How a query text comes apart

`Query.parse` cuts the trimmed text in front of its first blank and keeps the piece as the action
keyword when it is a known keyword other than the wildcard; the query's helpers then cut the
search into words. This module says what the pieces are, for every text and keyword list, in
terms of the words of the text and of its trimmed form:

* `Query.ScopedReading`, `Query.UnscopedReading` — the two ways a text is read: the keyword is
  the text's first word, a run of blanks and the search follow it in the trimmed text, and the
  words of the text are the keyword and then the terms; or there is no keyword and the search is
  the whole trimmed text, because the text is blank or its first word is no keyword;
* `Query.parse_reading` — every text is read one of the two ways;
* `Query.words_afterFirstTerm`, `Query.trimmed_afterFirstTerm` — the search after its first word
  holds the other terms and has no blank at either end;
* `Query.parse_decomposes` — the reading and the helpers together;
* `Query.parse_keyword_blank` — a known keyword, a blank, then any text is scoped to the keyword
  and searches the text trimmed;
* `Snapshot.completion_routes_back` — the text a result of a keyword plugin completes to reads
  as a query for the same keyword, searching the result's title, and reaches the plugin again.
-/

namespace Launcher

open Text

namespace Query

/-- A text read as scoped to a keyword: the keyword is a known one other than the wildcard and
the text's first word; in the trimmed text a run of blanks, empty only when the search is,
separates it from the search; and the words of the text are the keyword and then the terms. -/
def ScopedReading (raw : String) (keywords : List String) (q : Query) : Prop :=
  q.actionKeyword ∈ keywords ∧ q.actionKeyword ≠ wildcardKeyword ∧
    (words raw).head? = some q.actionKeyword ∧
    (∃ w : String, (∀ c ∈ w.toList, isBlank c = true) ∧ (w = "" ↔ q.search = "") ∧
      trim raw = q.actionKeyword ++ w ++ q.search) ∧
    words raw = q.actionKeyword :: q.terms

/-- A text read without a keyword: the search is the whole trimmed text, because the text is
blank, or its first word is no known keyword, or is the wildcard. -/
def UnscopedReading (raw : String) (keywords : List String) (q : Query) : Prop :=
  q.actionKeyword = "" ∧ q.search = trim raw ∧
    (trim raw = "" ∨ ∃ t, (words raw).head? = some t ∧ (t ∉ keywords ∨ t = wildcardKeyword))

/-- What follows the keyword in a trimmed text: a run of blanks, then the search, which is the
rest trimmed; the run is empty exactly when the search is. -/
theorem rest_of_trimmed {token rest : List Char} (ht : Trimmed (token ++ rest))
    (hrest : ∀ c ∈ rest.head?, isBlank c = true) :
    (trim (String.ofList rest)).toList = rest.dropWhile isBlank ∧
      (rest.takeWhile isBlank = [] ↔ rest.dropWhile isBlank = []) := by
  constructor
  · have hmid : Trimmed (rest.dropWhile isBlank) := by
      refine ⟨fun c hc => by simpa using head?_dropWhile_of_mem hc, fun c hc => ht.2 c ?_⟩
      rw [← List.takeWhile_append_dropWhile (p := isBlank) (l := rest), ← List.append_assoc,
        List.getLast?_append, Option.mem_def.1 hc]
      rfl
    have h := trim_of_split (l := rest.takeWhile isBlank) (fun c hc => List.mem_takeWhile_imp hc)
      hmid (t := []) (fun c hc => by simp at hc)
    rwa [List.append_nil, List.takeWhile_append_dropWhile] at h
  · cases rest with
    | nil => simp
    | cons b rest =>
      have hb : isBlank b = true := hrest b rfl
      have hw : (b :: rest).takeWhile isBlank ≠ [] := by simp [hb]
      have hr : (b :: rest).dropWhile isBlank ≠ [] := by
        intro hnil
        have hlast := List.getLast_mem (l := b :: rest) (by simp)
        have hx := List.dropWhile_eq_nil_iff.1 hnil _ hlast
        have hend : (b :: rest).getLast (by simp) ∈ (token ++ b :: rest).getLast? := by
          rw [List.getLast?_append, List.getLast?_eq_some_getLast (by simp)]
          rfl
        rw [ht.2 _ hend] at hx
        cases hx
      simp only [hw, hr]

/-- A text whose piece in front of the first blank is a known keyword, not the wildcard, reads as
scoped to it, with the rest trimmed as its search. -/
theorem scopedReading_of {raw : String} {keywords : List String} {token rest : List Char}
    (hsplit : token ++ rest = (trim raw).toList) (htok : ∀ c ∈ token, isBlank c = false)
    (hrest : ∀ c ∈ rest.head?, isBlank c = true) (hne : token ≠ [])
    (hk : String.ofList token ∈ keywords) (hwild : String.ofList token ≠ wildcardKeyword) :
    ScopedReading raw keywords
      { rawText := raw, actionKeyword := String.ofList token,
        search := trim (String.ofList rest) } := by
  have ht : Trimmed (token ++ rest) := hsplit ▸ trimmed_trim raw
  obtain ⟨hsearch, hempty⟩ := rest_of_trimmed ht hrest
  have hwords : words raw = String.ofList token :: words (trim (String.ofList rest)) := by
    rw [← words_trim raw, words_trim (String.ofList rest)]
    simp only [words]
    rw [← hsplit, wordsOf_word_append htok hne hrest, List.map_cons, String.toList_ofList]
  refine ⟨hk, hwild, by rw [hwords]; rfl,
    ⟨String.ofList (rest.takeWhile isBlank), ?_, ?_, ?_⟩, hwords⟩
  · intro c hc
    rw [String.toList_ofList] at hc
    exact List.mem_takeWhile_imp hc
  · rw [String.ofList_eq_empty_iff, ← String.toList_eq_nil_iff, hsearch]
    exact hempty
  · rw [← String.toList_inj]
    simp only [String.toList_append, String.toList_ofList, hsearch, ← hsplit, List.append_assoc,
      List.takeWhile_append_dropWhile]

/-- A text whose piece in front of the first blank, when there is one, is no known keyword or is
the wildcard reads as a search for the whole trimmed text. -/
theorem unscopedReading_of {raw : String} {keywords : List String} {token : List Char}
    (htoken : (breakAtBlank (trim raw).toList).1 = token)
    (hc : token ≠ [] → String.ofList token ∉ keywords ∨ String.ofList token = wildcardKeyword) :
    UnscopedReading raw keywords { rawText := raw, search := trim raw } := by
  refine ⟨rfl, rfl, ?_⟩
  by_cases hblank : trim raw = ""
  · exact .inl hblank
  · have hne : token ≠ [] := fun h => hblank ((breakAtBlank_trim_eq_nil_iff raw).1 (htoken ▸ h))
    exact .inr ⟨_, by rw [head_words, if_neg hblank, htoken], hc hne⟩

/-- **Every text is read one of two ways**: scoped to its first word, a known keyword, or as a
search for the whole trimmed text. -/
theorem parse_reading (raw : String) (keywords : List String) :
    ScopedReading raw keywords (parse raw keywords) ∨
      UnscopedReading raw keywords (parse raw keywords) := by
  simp only [parse]
  split
  · rename_i hc
    simp only [Bool.and_eq_true, Bool.not_eq_true', bne_iff_ne, ne_eq,
      List.contains_iff_mem] at hc
    obtain ⟨⟨hne, hwild⟩, hk⟩ := hc
    refine .inl (scopedReading_of (breakAtBlank_append _) (breakAtBlank_fst_not_blank _)
      (breakAtBlank_snd_head _) ?_ hk hwild)
    rintro h
    rw [h] at hne
    simp at hne
  · rename_i hc
    refine .inr (unscopedReading_of rfl fun hne => ?_)
    have hempty : (String.ofList (breakAtBlank (trim raw).toList).1).isEmpty = false := by
      simpa [String.isEmpty_iff] using hne
    simp only [hempty, Bool.not_false, Bool.true_and, Bool.and_eq_true, bne_iff_ne, ne_eq,
      List.contains_iff_mem, not_and] at hc
    by_cases hw : String.ofList (breakAtBlank (trim raw).toList).1 = wildcardKeyword
    · exact .inr hw
    · exact .inl (hc hw)

/-- The search after its first word: what follows the first word, trimmed. -/
theorem afterFirstTerm_eq (q : Query) :
    q.afterFirstTerm = trim (String.ofList (breakAtBlank (dropBlanks q.search.toList)).2) := by
  simp only [afterFirstTerm]
  split
  · rename_i h
    rw [List.isEmpty_iff.1 h]
    simp [trim, trimEnd, trimStart, dropBlanks]
  · rfl

/-- **The rest of the search** holds the terms after the first. -/
theorem words_afterFirstTerm (q : Query) : words q.afterFirstTerm = q.terms.tail := by
  rw [afterFirstTerm_eq, words_trim, terms]
  have hs : ∀ c ∈ (dropBlanks q.search.toList).head?, isBlank c = false :=
    fun c hc => head?_dropWhile_of_mem hc
  have hsearch : words q.search = (wordsOf (dropBlanks q.search.toList)).map String.ofList := by
    simp only [words]
    conv_lhs => rw [← List.takeWhile_append_dropWhile (p := isBlank) (l := q.search.toList)]
    rw [wordsOf, wordsFrom_blanks_append (fun c hc => List.mem_takeWhile_imp hc)]
    rfl
  rw [hsearch]
  by_cases hne : (breakAtBlank (dropBlanks q.search.toList)).1 = []
  · rw [(breakAtBlank_fst_eq_nil hs).1 hne]
    simp [breakAtBlank, words, wordsOf, wordsFrom]
  · rw [wordsOf_breakAtBlank hne]
    simp [words]

/-- The rest of the search has no blank at either end. -/
theorem trimmed_afterFirstTerm (q : Query) : Trimmed q.afterFirstTerm.toList := by
  rw [afterFirstTerm_eq]
  exact trimmed_trim _

/-- **How a text comes apart.** Every text is read either as scoped to a known keyword, its first
word, or as a search for the whole trimmed text; the first term is the first word of the search,
and the rest of the search holds the other terms, with no blank at either end. -/
theorem parse_decomposes (raw : String) (keywords : List String) :
    (parse raw keywords).rawText = raw ∧
      (ScopedReading raw keywords (parse raw keywords) ∨
        UnscopedReading raw keywords (parse raw keywords)) ∧
      (parse raw keywords).firstTerm = (parse raw keywords).terms.headD "" ∧
      words (parse raw keywords).afterFirstTerm = (parse raw keywords).terms.tail ∧
      Trimmed (parse raw keywords).afterFirstTerm.toList :=
  ⟨rawText_parse raw keywords, parse_reading raw keywords, rfl,
    words_afterFirstTerm _, trimmed_afterFirstTerm _⟩

/-- A word, a blank, then any text: the trimmed text starts with the word, and what follows the
word starts at a blank and trims to the text trimmed. -/
theorem trim_word_blank {k : String} (hk : ∀ c ∈ k.toList, isBlank c = false) (hne : k ≠ "")
    (title : String) :
    ∃ rest : List Char, (trim (k ++ " " ++ title)).toList = k.toList ++ rest ∧
      (∀ c ∈ rest.head?, isBlank c = true) ∧ trim (String.ofList rest) = trim title := by
  obtain ⟨l, t, hl, ht, hsplit⟩ := exists_split_trim title
  have hk' : k.toList ≠ [] := by simpa using hne
  have htext : (k ++ " " ++ title).toList = k.toList ++ ' ' :: (l ++ (trim title).toList ++ t) := by
    simp [String.toList_append, hsplit]
  have hspace : isBlank ' ' = true := by decide
  by_cases hm : (trim title).toList = []
  · have hblanks : ∀ c ∈ ' ' :: (l ++ t), isBlank c = true := by
      intro c hc
      rcases List.mem_cons.1 hc with rfl | hc
      · exact hspace
      · rcases List.mem_append.1 hc with hc | hc
        exacts [hl c hc, ht c hc]
    have h := trim_of_split (l := []) (by simp)
      ⟨fun c hc => hk c (List.mem_of_mem_head? hc), fun c hc => hk c (List.mem_of_mem_getLast? hc)⟩
      hblanks
    have heq : k ++ " " ++ title = String.ofList ([] ++ k.toList ++ ' ' :: (l ++ t)) := by
      rw [← String.toList_inj, htext, hm, String.toList_ofList]
      simp
    refine ⟨[], by rw [heq, h, List.append_nil], by simp, ?_⟩
    rw [String.toList_eq_nil_iff.1 hm]
    simp [trim, trimEnd, trimStart, dropBlanks]
  · have hhead : ∀ c ∈ (k.toList ++ ' ' :: l).head?, isBlank c = false := by
      rw [List.head?_append_of_ne_nil _ hk']
      exact fun c hc => hk c (List.mem_of_mem_head? hc)
    have hmid : Trimmed (k.toList ++ ' ' :: l ++ (trim title).toList) :=
      trimmed_append (by simp) hm hhead (trimmed_trim title).2
    have h := trim_of_split (l := []) (by simp) hmid ht
    have heq : k ++ " " ++ title =
        String.ofList ([] ++ (k.toList ++ ' ' :: l ++ (trim title).toList) ++ t) := by
      rw [← String.toList_inj, htext, String.toList_ofList]
      simp
    have hrest := trim_of_split (l := ' ' :: l) (t := []) (fun c hc => by
      rcases List.mem_cons.1 hc with rfl | hc
      exacts [hspace, hl c hc]) (trimmed_trim title) (by simp)
    refine ⟨' ' :: (l ++ (trim title).toList), by rw [heq, h]; simp, fun c hc => ?_, ?_⟩
    · cases hc
      exact hspace
    · rw [List.cons_append, List.append_nil] at hrest
      exact String.toList_inj.1 hrest

/-- **A keyword, a blank, then any text** is scoped to the keyword and searches the text
trimmed. -/
theorem parse_keyword_blank {keywords : List String} {k : String} (hk : k ∈ keywords)
    (hwild : k ≠ wildcardKeyword) (hword : ∀ c ∈ k.toList, isBlank c = false) (hne : k ≠ "")
    (title : String) :
    parse (k ++ " " ++ title) keywords =
      { rawText := k ++ " " ++ title, actionKeyword := k, search := trim title } := by
  obtain ⟨rest, htrim, hrest, hsearch⟩ := trim_word_blank hword hne title
  have hcut : breakAtBlank (trim (k ++ " " ++ title)).toList = (k.toList, rest) := by
    rw [htrim]
    exact breakAtBlank_word_append hword hrest
  have hstar : k ≠ "*" := hwild
  simp only [parse, hcut, String.ofList_toList]
  rw [if_pos (by simpa [String.isEmpty_iff, hne, hstar] using hk), hsearch]

end Query

/-! ## Completions read back -/

namespace Snapshot

/-- An enabled plugin is a target of every query scoped to its keyword. -/
theorem isTarget_of_scopedKeyword {m : PluginMetadata} {q : Query} (o : DispatchOptions)
    (hd : m.disabled = false) (hk : m.scopedKeyword = some q.actionKeyword) :
    isTarget m q o = true := by
  have hs : q.isScoped = true := by
    simpa [Query.isScoped, String.isEmpty_iff] using (PluginMetadata.scopedKeyword_eq_some hk).1
  simp [isTarget, hd, hs, hk]

/-- A result whose plugin gives no text of its own completes to the fallback text. -/
theorem displayText_of_plain {item : ResultItem}
    (h : ∀ t, item.queryTextDisplay = some t → t = "") (m : Option PluginMetadata) (q : Query) :
    displayText item m q = displayText.fallback item m q := by
  unfold displayText
  cases hd : item.queryTextDisplay with
  | none => rfl
  | some t => simp [h t hd]

/-- **A completion routes back.** A result of a plugin addressed through its keyword, with no
text of its own, completes to the keyword, a blank and its title; that text reads as a query
scoped to the same keyword, searching the title trimmed, and the plugin is again among its
targets. -/
theorem completion_routes_back (s : Snapshot) (o : DispatchOptions) (raw : String) {p : Listed}
    {item : ResultItem} (hp : p ∈ s.targets (s.parse raw) o)
    (hplain : ∀ t, item.queryTextDisplay = some t → t = "")
    (hkw : p.metadata.scopedKeyword = some (s.parse raw).actionKeyword) :
    let q := s.parse raw
    let text := displayText item (some p.metadata) q
    text = q.actionKeyword ++ " " ++ item.title ∧ (s.parse text).isScoped = true ∧
      (s.parse text).actionKeyword = q.actionKeyword ∧ (s.parse text).search = trim item.title ∧
      p ∈ s.targets (s.parse text) o := by
  intro q text
  have hkw' : p.metadata.scopedKeyword = some q.actionKeyword := hkw
  obtain ⟨hne, hwild⟩ := PluginMetadata.scopedKeyword_eq_some hkw'
  have hscoped : q.isScoped = true := by simpa [Query.isScoped, String.isEmpty_iff] using hne
  have hread : Query.ScopedReading raw s.keywords q := by
    rcases Query.parse_reading raw s.keywords with h | h
    · exact h
    · exact absurd h.1 hne
  have htext : text = q.actionKeyword ++ " " ++ item.title := by
    simp [text, displayText_of_plain hplain, displayText.fallback, hscoped, hkw']
  have hparse : s.parse text =
      { rawText := text, actionKeyword := q.actionKeyword, search := trim item.title } := by
    rw [Snapshot.parse, htext]
    exact Query.parse_keyword_blank hread.1 hread.2.1 (not_isBlank_of_head_words hread.2.2.1) hne
      item.title
  obtain ⟨hmem, htarget⟩ := List.mem_filter.1 hp
  have hd : p.metadata.disabled = false := by
    cases h : p.metadata.disabled
    · rfl
    · rw [isTarget_disabled _ _ _ h] at htarget
      cases htarget
  clear_value q text
  rw [hparse]
  exact ⟨htext, hscoped, rfl, rfl, List.mem_filter.2 ⟨hmem, isTarget_of_scopedKeyword o hd hkw'⟩⟩

/-- A calculator addressed by `>`: its answer `4` to `> 2+2` completes to `> 4`, which is read
as a query for `>` searching `4` and reaches the calculator again. -/
theorem calculator_completion_routes_back :
    let p : Listed := ⟨{ id := "calc", actionKeyword := ">" }, 0⟩
    let s : Snapshot := { plugins := [p], keywords := [">"] }
    let item : ResultItem := { title := "4" }
    let q := s.parse "> 2+2"
    let text := displayText item (some p.metadata) q
    p ∈ s.targets q {} ∧ (∀ t, item.queryTextDisplay = some t → t = "") ∧
      p.metadata.scopedKeyword = some q.actionKeyword ∧
      (text = q.actionKeyword ++ " " ++ item.title ∧ (s.parse text).isScoped = true ∧
        (s.parse text).actionKeyword = q.actionKeyword ∧ (s.parse text).search = trim item.title ∧
        p ∈ s.targets (s.parse text) {}) := by
  intro p s item q text
  have hp : p ∈ s.targets q {} := List.mem_filter.2 ⟨List.mem_singleton_self p, by decide⟩
  have hplain : ∀ t, item.queryTextDisplay = some t → t = "" := fun t h => by cases h
  have hkw : p.metadata.scopedKeyword = some q.actionKeyword := by decide
  exact ⟨hp, hplain, hkw, completion_routes_back s {} "> 2+2" hp hplain hkw⟩

end Snapshot

end Launcher
