import BinderTracer.App.ColdEventStore

/-!
# The search and the list

The filter is written twice: as a test of events in memory, and as the clauses of a query. The two agree on
the buckets. They agree on a text when it has none of the characters that are escaped, since the query
declares no escape character; when the two comparisons of characters agree on it; and, for modules, when it
does not reach across lines.
-/

namespace BinderTracer.App

open BinderTracer.Lib
open ColdEventStore EventFilter

/-! ### Patterns -/

namespace ColdEventStore

/-- The characters that are escaped. -/
def special (c : Char) : Bool := c = '\\' || c = '%' || c = '_'

def escapeChar (c : Char) : List Char := if special c then ['\\', c] else [c]

theorem toList_escapeLike (s : String) : (escapeLike s).toList = s.toList.flatMap escapeChar := by
  simp only [escapeLike, replace, String.toList_ofList, List.flatMap_assoc]
  congr 1
  funext c
  by_cases h₁ : c = '\\'
  · subst h₁; rfl
  · by_cases h₂ : c = '%'
    · subst h₂; rfl
    · by_cases h₃ : c = '_'
      · subst h₃; rfl
      · simp [escapeChar, special, h₁, h₂, h₃]

/-- Each special character gets a backslash. -/
theorem count_flatMap_escapeChar (text : List Char) :
    (text.flatMap escapeChar).count '\\' = text.count '\\' + text.countP special := by
  induction text with
  | nil => rfl
  | cons c text ih =>
    rw [List.flatMap_cons, List.count_append, ih, List.count_cons, List.countP_cons, escapeChar]
    cases hc : special c with
    | true => simp [List.count_cons]; omega
    | false => simp [List.count_cons]; omega

theorem flatMap_escapeChar {text : List Char} (h : ∀ c ∈ text, special c = false) :
    text.flatMap escapeChar = text := by
  induction text with
  | nil => rfl
  | cons c text ih =>
    rw [List.flatMap_cons, ih fun d hd => h d (List.mem_cons_of_mem c hd), escapeChar, h c List.mem_cons_self]
    rfl

theorem sameAscii_self (c : Char) : sameAscii c c = true := decide_eq_true rfl

/-- Without special characters, a pattern looks for the text. -/
theorem like_plain {text : String} (h : ∀ c ∈ text.toList, special c = false) (s : List Char) :
    like sameAscii (anywhere (escapeLike text).toList) s = holdsText sameAscii text.toList s := by
  rw [toList_escapeLike, flatMap_escapeChar h]
  refine like_anywhere sameAscii (fun c hc => ?_) s
  have hspecial := h c hc
  simp only [special, Bool.or_eq_false_iff, decide_eq_false_iff_not] at hspecial
  exact ⟨hspecial.1.2, hspecial.2⟩

/-- A text with a special character is not found in itself: the pattern has more backslashes. -/
theorem not_like_special {text : String} {c : Char} (hc : c ∈ text.toList) (hspecial : special c = true) :
    like sameAscii (anywhere (escapeLike text).toList) text.toList = false := by
  rw [← Bool.not_eq_true]
  intro hlike
  have hliteral : IsLiteral '\\' := ⟨by decide, by decide⟩
  have honly (d : Char) (h : sameAscii '\\' d = true) : d = '\\' :=
    eq_of_toLower_eq (of_decide_eq_true h) (by decide)
  have hcount := count_le_of_like sameAscii hliteral honly hlike
  have hanywhere : (anywhere (escapeLike text).toList).count '\\' =
      text.toList.count '\\' + text.toList.countP special := by
    rw [← count_flatMap_escapeChar, ← toList_escapeLike]
    simp [anywhere]
  have hpos : 0 < text.toList.countP special := List.countP_pos_iff.2 ⟨c, hc, hspecial⟩
  omega

end ColdEventStore

/-! ### One text -/

/-- A text on which the two tests agree: without special characters, and with characters that both compare
in one way. -/
def PlainText (tables : CharTables) (text : String) : Prop :=
  ∀ c ∈ text.toList, special c = false ∧ ∀ d, tables.same c d = sameAscii c d

section
variable {tables : CharTables} {text : String}

theorem PlainText.agrees (h : PlainText tables text) (s : String) :
    tables.contains s text = like sameAscii (anywhere (escapeLike text).toList) s.toList := by
  rw [like_plain fun c hc => (h c hc).1]
  exact holdsText_congr _ (fun c hc => (h c hc).2) s.toList

/-- The tests agree on each text only if it is plain. -/
theorem plainText_of_agrees
    (h : ∀ s : String, s ≠ "" →
      tables.contains s text = like sameAscii (anywhere (escapeLike text).toList) s.toList) :
    PlainText tables text := by
  have hne {c : Char} {s : String} (hc : c ∈ s.toList) : s ≠ "" := by
    rintro rfl
    exact nomatch hc
  have hspecial : ∀ c ∈ text.toList, special c = false := by
    intro c hc
    rw [← Bool.not_eq_true]
    intro htrue
    have hself : tables.contains text text = true := holdsText_self _ tables.same_self _
    rw [h text (hne hc), not_like_special hc htrue] at hself
    exact nomatch hself
  refine fun c hc => ⟨hspecial c hc, fun d => ?_⟩
  obtain ⟨before, after, hsplit⟩ := List.append_of_mem hc
  -- the text with the one character replaced
  have hother : (String.ofList (before ++ d :: after)).toList = before ++ d :: after := String.toList_ofList
  have hlength : text.toList.length = (before ++ d :: after).length := by simp [hsplit]
  have hagree := h (String.ofList (before ++ d :: after)) (hne (by rw [hother]; exact List.mem_append_cons_self))
  rw [like_plain hspecial, CharTables.contains, hother, holdsText_of_length_eq _ hlength,
    holdsText_of_length_eq _ hlength, hsplit, startsWithText_replace _ tables.same_self,
    startsWithText_replace _ sameAscii_self] at hagree
  exact hagree

/-- **The tests of a text agree on every name when it is blank or plain, and only then.** -/
theorem textMatch_eq_iff :
    (∀ s, textMatch tables text s = likeMatch tables text s) ↔
      (tables.isBlank text = false → PlainText tables text) := by
  constructor
  · intro h hblank
    refine plainText_of_agrees fun s _ => ?_
    have hs := h s
    rw [textMatch, likeMatch, hblank, Bool.false_or, Bool.false_or] at hs
    exact hs
  · intro h s
    rw [textMatch, likeMatch]
    cases hblank : tables.isBlank text with
    | true => rw [Bool.true_or, Bool.true_or]
    | false => rw [(h hblank).agrees s]

end

/-! ### The modules of a stack -/

/-- The modules of the frames. -/
def StackTrace.modules (st : StackTrace) : List String := (st.uFrames ++ st.kFrames).map (·.module)

/-- A stack with given modules. -/
def StackTrace.ofModules (modules : List String) : StackTrace where
  quality := .full
  truncated := 0
  kFrames := []
  uFrames := modules.map fun module => { pc := 0, module, symbol := "", offset := 0 }

theorem StackTrace.modules_ofModules (modules : List String) : (ofModules modules).modules = modules := by
  simp [StackTrace.modules, ofModules, Function.comp_def]

/-- The modules as they are joined. -/
def StackTrace.lines (st : StackTrace) : List String := (st.modules.filter (· ≠ "")).eraseDups

theorem StackTrace.stackModules_some (st : StackTrace) :
    ColdEventCodec.stackModules (some st) =
      if st.lines.isEmpty then none else some ("\n".intercalate st.lines) := rfl

section
variable {tables : CharTables} {text : String}

theorem stackModuleMatch_some (hblank : tables.isBlank text = false) (st : StackTrace) :
    stackModuleMatch tables text (some st) = st.modules.any fun m => tables.contains m text := by
  rw [stackModuleMatch, hblank, Bool.false_or, StackTrace.modules, List.any_map, List.any_append]
  rfl

theorem stackModulesLikeMatch_some (hblank : tables.isBlank text = false) (st : StackTrace) :
    stackModulesLikeMatch tables text (some st) =
      (!st.lines.isEmpty &&
        like sameAscii (anywhere (escapeLike text).toList) ("\n".intercalate st.lines).toList) := by
  rw [stackModulesLikeMatch, hblank, Bool.false_or, StackTrace.stackModules_some]
  cases st.lines.isEmpty <;> simp

/-- Leaving out the empty modules and the repeated ones changes nothing for a text that is not blank. -/
theorem any_lines (hblank : tables.isBlank text = false) (st : StackTrace) :
    (st.lines.any fun m => tables.contains m text) = st.modules.any fun m => tables.contains m text := by
  rw [Bool.eq_iff_iff, List.any_eq_true, List.any_eq_true, StackTrace.lines]
  constructor
  · rintro ⟨m, hm, hcontains⟩
    exact ⟨m, (List.mem_filter.1 (List.mem_eraseDups.1 hm)).1, hcontains⟩
  · rintro ⟨m, hm, hcontains⟩
    refine ⟨m, List.mem_eraseDups.2 (List.mem_filter.2 ⟨hm, decide_eq_true ?_⟩), hcontains⟩
    rintro rfl
    rw [CharTables.contains_empty hblank] at hcontains
    exact nomatch hcontains

/-- A plain text of one line is found in the lines where it is in one of them. -/
theorem like_lines (hplain : PlainText tables text) (hline : '\n' ∉ text.toList) {lines : List String}
    (hne : lines ≠ []) :
    like sameAscii (anywhere (escapeLike text).toList) ("\n".intercalate lines).toList =
      lines.any fun m => tables.contains m text := by
  have hsep : ∀ c ∈ text.toList, tables.same c '\n' = false := by
    intro c hc
    rw [(hplain c hc).2, ← Bool.not_eq_true]
    intro hsame
    have hc' : c = '\n' := eq_of_toLower_eq (of_decide_eq_true hsame).symm (by decide)
    exact hline (hc' ▸ hc)
  have hne' : lines.map String.toList ≠ [] := fun h => hne (List.map_eq_nil_iff.1 h)
  rw [← hplain.agrees, CharTables.contains, String.toList_intercalate]
  exact (holdsText_intercalate hsep hne').trans List.any_map

/-- A text that reaches across lines is found in two lines that do not have it. -/
theorem exists_lines {text : List Char} (hline : '\n' ∈ text) (hlength : 2 ≤ text.length) :
    ∃ first second before after : List Char, first ≠ [] ∧ second ≠ [] ∧ first ≠ second ∧
      first.length < text.length ∧ second.length < text.length ∧
      first ++ '\n' :: second = before ++ text ++ after := by
  obtain ⟨head, tail, rfl⟩ := List.append_of_mem hline
  -- one character more is enough to make the lines differ
  have hother (rest line : List Char) : ∃ c : Char, c :: rest ≠ line := by
    by_cases h : 'a' :: rest = line
    · refine ⟨'b', fun hb => ?_⟩
      have hab := (List.cons.inj (h.trans hb.symm)).1
      exact absurd hab (by decide)
    · exact ⟨'a', h⟩
  cases tail with
  | cons c tail =>
    obtain ⟨d, hd⟩ := hother head (c :: tail)
    exact ⟨d :: head, c :: tail, [d], [], by simp, by simp, hd, by simp, by simp; omega, by simp⟩
  | nil =>
    have hhead : head ≠ [] := by
      rintro rfl
      simp at hlength
    obtain ⟨c, hc⟩ := hother [] head
    have hpos := List.length_pos_iff.2 hhead
    exact ⟨head, [c], [], [c], hhead, by simp, hc.symm, by simp, by simp; omega, by simp⟩

/-- A text in several lines is found in some stack none of whose modules has it. -/
theorem exists_stack_of_newline (hplain : PlainText tables text) (hblank : tables.isBlank text = false)
    (hline : '\n' ∈ text.toList) :
    ∃ st, stackModuleMatch tables text (some st) = false ∧ stackModulesLikeMatch tables text (some st) = true := by
  have hlength : 2 ≤ text.toList.length := by
    by_contra hshort
    obtain ⟨c, hc⟩ : ∃ c, text.toList = [c] := by
      have hpos := List.length_pos_of_mem hline
      exact List.length_eq_one_iff.1 (by omega)
    rw [hc, List.mem_singleton] at hline
    rw [CharTables.isBlank, hc, ← hline, List.all_cons, tables.newline_isWhitespace] at hblank
    simp at hblank
  obtain ⟨first, second, before, after, hfirst, hsecond, hne, hlt₁, hlt₂, hjoin⟩ := exists_lines hline hlength
  have hofList {l : List Char} (h : l ≠ []) : String.ofList l ≠ "" := fun h' =>
    h (by rw [← String.toList_ofList (l := l), h']; rfl)
  have hdistinct : String.ofList first ≠ String.ofList second := fun h => hne (String.ofList_injective h)
  refine ⟨.ofModules [String.ofList first, String.ofList second], ?_, ?_⟩
  · have hnot {l : List Char} (h : l.length < text.toList.length) :
        tables.contains (String.ofList l) text = false := by
      rw [← Bool.not_eq_true]
      intro hcontains
      have hle := length_le_of_holdsText _ hcontains
      rw [String.toList_ofList] at hle
      omega
    rw [stackModuleMatch_some hblank, StackTrace.modules_ofModules]
    simp [hnot hlt₁, hnot hlt₂]
  · have hlines : (StackTrace.ofModules [String.ofList first, String.ofList second]).lines =
        [String.ofList first, String.ofList second] := by
      rw [StackTrace.lines, StackTrace.modules_ofModules]
      simp [hofList hfirst, hofList hsecond, List.eraseDups_cons, hdistinct.symm]
    have hjoined : ("\n".intercalate [String.ofList first, String.ofList second]).toList =
        before ++ text.toList ++ after := by
      rw [← hjoin, String.toList_intercalate]
      simp [List.intercalate]
    rw [stackModulesLikeMatch_some hblank, hlines, hjoined, like_plain fun c hc => (hplain c hc).1,
      holdsText_append _ sameAscii_self]
    rfl

/-- **The tests of the modules agree on every stack when the text is blank, or plain and in one line, and
only then.** -/
theorem stackModuleMatch_eq_iff :
    (∀ stackTrace, stackModuleMatch tables text stackTrace = stackModulesLikeMatch tables text stackTrace) ↔
      (tables.isBlank text = false → PlainText tables text ∧ '\n' ∉ text.toList) := by
  constructor
  · intro h hblank
    have hplain : PlainText tables text := by
      refine plainText_of_agrees fun s hs => ?_
      have hst := h (some (.ofModules [s]))
      rw [stackModuleMatch_some hblank, stackModulesLikeMatch_some hblank, StackTrace.lines,
        StackTrace.modules_ofModules] at hst
      simpa [hs, List.eraseDups_cons, String.intercalate_singleton] using hst
    refine ⟨hplain, fun hline => ?_⟩
    obtain ⟨st, hmatch, hlike⟩ := exists_stack_of_newline hplain hblank hline
    rw [h, hlike] at hmatch
    exact nomatch hmatch
  · intro h stackTrace
    cases hblank : tables.isBlank text with
    | true => simp only [stackModuleMatch, stackModulesLikeMatch, hblank, Bool.true_or]
    | false =>
      obtain ⟨hplain, hline⟩ := h hblank
      cases stackTrace with
      | none => rw [stackModuleMatch, stackModulesLikeMatch, hblank]; rfl
      | some st =>
        rw [stackModuleMatch_some hblank, stackModulesLikeMatch_some hblank, ← any_lines hblank]
        cases hlines : st.lines with
        | nil => rfl
        | cons m rest => rw [like_lines hplain hline (List.cons_ne_nil m rest)]; rfl

end

/-! ### All texts -/

/-- Each test is passed by some value. -/
theorem exists_textMatch (tables : CharTables) (text : String) :
    (∃ s, textMatch tables text s = true) ∧ ∃ s, likeMatch tables text s = true := by
  refine ⟨⟨text, ?_⟩, ⟨escapeLike text, ?_⟩⟩
  · rw [textMatch, CharTables.contains, holdsText_self _ tables.same_self, Bool.or_true]
  · rw [likeMatch, like_anywhere_self _ sameAscii_self, Bool.or_true]

theorem escapeLike_ne_empty {text : String} (h : text.toList ≠ []) : escapeLike text ≠ "" := by
  intro hempty
  obtain ⟨c, rest, hcons⟩ := List.exists_cons_of_ne_nil h
  have hlist := toList_escapeLike text
  rw [hempty, hcons, List.flatMap_cons, escapeChar] at hlist
  split at hlist <;> exact nomatch hlist

theorem exists_stackModuleMatch (tables : CharTables) (text : String) :
    (∃ st, stackModuleMatch tables text st = true) ∧ ∃ st, stackModulesLikeMatch tables text st = true := by
  cases hblank : tables.isBlank text with
  | true =>
    refine ⟨⟨none, ?_⟩, ⟨none, ?_⟩⟩
    · rw [stackModuleMatch, hblank]
      rfl
    · rw [stackModulesLikeMatch, hblank]
      rfl
  | false =>
    refine ⟨⟨some (.ofModules [text]), ?_⟩, ⟨some (.ofModules [escapeLike text]), ?_⟩⟩
    · rw [stackModuleMatch_some hblank, StackTrace.modules_ofModules]
      simp [CharTables.contains, holdsText_self _ tables.same_self]
    · have hne := escapeLike_ne_empty (CharTables.toList_ne_nil_of_not_isBlank hblank)
      rw [stackModulesLikeMatch_some hblank, StackTrace.lines, StackTrace.modules_ofModules]
      simp [hne, List.eraseDups_cons, String.intercalate_singleton, like_anywhere_self _ sameAscii_self]

/-- In a conjunction of tests of independent values, each test counts, if the others can be passed. -/
theorem tests_eq_of_and_eq {α β γ : Type} {f f' : α → Bool} {g g' : β → Bool} {k k' : γ → Bool}
    (h : ∀ a b c, (f a && g b && k c) = (f' a && g' b && k' c))
    (hf : (∃ a, f a = true) ∧ ∃ a, f' a = true) (hg : (∃ b, g b = true) ∧ ∃ b, g' b = true)
    (hk : (∃ c, k c = true) ∧ ∃ c, k' c = true) :
    (∀ a, f a = f' a) ∧ (∀ b, g b = g' b) ∧ ∀ c, k c = k' c := by
  have hiff (a : α) (b : β) (c : γ) :
      ((f a = true ∧ g b = true) ∧ k c = true) ↔ ((f' a = true ∧ g' b = true) ∧ k' c = true) := by
    simp only [← Bool.and_eq_true, h a b c]
  obtain ⟨⟨a, ha⟩, ⟨a', ha'⟩⟩ := hf
  obtain ⟨⟨b, hb⟩, ⟨b', hb'⟩⟩ := hg
  obtain ⟨⟨c, hc⟩, ⟨c', hc'⟩⟩ := hk
  refine ⟨fun x => Bool.eq_iff_iff.2 ⟨fun hx => ?_, fun hx => ?_⟩,
    fun x => Bool.eq_iff_iff.2 ⟨fun hx => ?_, fun hx => ?_⟩,
    fun x => Bool.eq_iff_iff.2 ⟨fun hx => ?_, fun hx => ?_⟩⟩
  · exact ((hiff x b c).1 ⟨⟨hx, hb⟩, hc⟩).1.1
  · exact ((hiff x b' c').2 ⟨⟨hx, hb'⟩, hc'⟩).1.1
  · exact ((hiff a x c).1 ⟨⟨ha, hx⟩, hc⟩).1.2
  · exact ((hiff a' x c').2 ⟨⟨ha', hx⟩, hc'⟩).1.2
  · exact ((hiff a b x).1 ⟨⟨ha, hb⟩, hx⟩).2
  · exact ((hiff a' b' x).2 ⟨⟨ha', hb'⟩, hx⟩).2

/-- A text that takes part in the filter is plain, and that of the modules has no line break. -/
structure PlainFilter (tables : CharTables) (filter : EventFilter) : Prop where
  interface : tables.isBlank filter.interfaceContains = false → PlainText tables filter.interfaceContains
  method : tables.isBlank filter.methodContains = false → PlainText tables filter.methodContains
  stackModule : tables.isBlank filter.stackModuleContains = false →
    PlainText tables filter.stackModuleContains ∧ '\n' ∉ filter.stackModuleContains.toList

/-- The event is found by the search just if the list shows it. -/
def EventAgrees (tables : CharTables) (filter : EventFilter) (e : BinderEvent) : Prop :=
  (filterClauses tables filter).all (Clause.holds (ColdEventCodec.toRow e)) =
    (e.visible && filter.matches tables e)

theorem PlainFilter.eventAgrees {tables : CharTables} {filter : EventFilter} (h : PlainFilter tables filter)
    (e : BinderEvent) : EventAgrees tables filter e := by
  rw [EventAgrees, filterClauses_all, matches_eq, textMatch_eq_iff.2 h.interface, textMatch_eq_iff.2 h.method,
    stackModuleMatch_eq_iff.2 h.stackModule]

theorem plainFilter_of_eventAgrees {tables : CharTables} {filter : EventFilter}
    (h : ∀ e, EventAgrees tables filter e) : PlainFilter tables filter := by
  obtain ⟨source, hsource⟩ := filter.exists_bucketMatch
  -- the tests of an event with any names and any stack, in an allowed bucket
  have hall (s m : String) (st : Option StackTrace) :
      (textMatch tables filter.interfaceContains s && textMatch tables filter.methodContains m &&
          stackModuleMatch tables filter.stackModuleContains st) =
        (likeMatch tables filter.interfaceContains s && likeMatch tables filter.methodContains m &&
          stackModulesLikeMatch tables filter.stackModuleContains st) := by
    let e : BinderEvent := {
      id := 0, timestamp := 0, pid := 0, uid := 0, code := 0, flags := 0, rawParcel := []
      stackTrace := st, interfaceName? := some s, methodName? := some m, decodeSource := source }
    have he := h e
    rw [EventAgrees, filterClauses_all, matches_eq, hsource e rfl, Bool.and_true, Bool.and_true] at he
    exact he.symm
  obtain ⟨hinterface, hmethod, hstack⟩ := tests_eq_of_and_eq hall
    (exists_textMatch tables filter.interfaceContains) (exists_textMatch tables filter.methodContains)
    (exists_stackModuleMatch tables filter.stackModuleContains)
  exact ⟨textMatch_eq_iff.1 hinterface, textMatch_eq_iff.1 hmethod, stackModuleMatch_eq_iff.1 hstack⟩

/-! ### The search -/

/-- Following the cursors of the search gives, newest first and once each, the events that the list shows. -/
def SearchAgrees (tables : CharTables) (store : EventStore) (filter : EventFilter) (pageSize : Nat) : Prop :=
  Collects (query tables store filter pageSize)
    ((store.events.filter fun e => e.visible && filter.matches tables e).map BinderEvent.archived)

theorem EventStore.eq_of_id (store : EventStore) {a b : BinderEvent} (ha : a ∈ store.events)
    (hb : b ∈ store.events) (hid : a.id = b.id) : a = b := by
  have hnodup : (store.events.map (·.id)).Nodup := by
    rw [List.Nodup, List.pairwise_map]
    refine store.newestFirst.imp fun {a b} hlt heq => ?_
    rw [heq] at hlt
    exact Int64.lt_irrefl hlt
  exact List.inj_on_of_nodup_map hnodup ha hb hid

/-- The search agrees with the list where the two tests agree on each event. -/
theorem searchAgrees_iff {tables : CharTables} {store : EventStore} {filter : EventFilter} {pageSize : Nat}
    (hsize : 1 ≤ pageSize) :
    SearchAgrees tables store filter pageSize ↔ ∀ e ∈ store.events, EventAgrees tables filter e := by
  have hcollects := collects_query tables store filter hsize
  constructor
  · intro h e he
    have hsame := hcollects.unique h
    -- an event is on one side just if its id is
    have hmem (p : BinderEvent → Bool) :
        e.id ∈ ((store.events.filter p).map BinderEvent.archived).map (·.id) ↔ p e = true := by
      rw [List.map_map, List.mem_map]
      constructor
      · rintro ⟨x, hx, hid⟩
        obtain ⟨hx, hp⟩ := List.mem_filter.1 hx
        rw [← store.eq_of_id hx he hid]
        exact hp
      · exact fun hp => ⟨e, List.mem_filter.2 ⟨he, hp⟩, rfl⟩
    have hfound := hmem fun e => (filterClauses tables filter).all (Clause.holds (ColdEventCodec.toRow e))
    have hshown := hmem fun e => e.visible && filter.matches tables e
    rw [← found, hsame] at hfound
    rw [EventAgrees, Bool.eq_iff_iff]
    exact hfound.symm.trans hshown
  · intro h
    rw [SearchAgrees, ← List.filter_congr h]
    exact hcollects

/-- **The search agrees with the list on every store just for plain filters.** -/
theorem search_agrees_iff_plain (tables : CharTables) (filter : EventFilter) {pageSize : Nat}
    (hsize : 1 ≤ pageSize) :
    (∀ store, SearchAgrees tables store filter pageSize) ↔ PlainFilter tables filter := by
  constructor
  · intro h
    refine plainFilter_of_eventAgrees fun e => ?_
    exact (searchAgrees_iff hsize).1 (h (EventStore.empty.insert e)) e (EventStore.mem_insert.2 (.inl rfl))
  · intro h store
    exact (searchAgrees_iff hsize).2 fun e _ => h.eventAgrees e

theorem asciiTables_same (c d : Char) : asciiTables.same c d = sameAscii c d := by
  have hupper (h : c.toUpper = d.toUpper) : c.toLower = d.toLower := by
    rw [← toLower_toUpper c, h, toLower_toUpper]
  rw [CharTables.same, sameAscii, asciiTables, Bool.eq_iff_iff]
  simp only [toLower_toUpper, Bool.or_eq_true, decide_eq_true_eq]
  constructor
  · rintro ((rfl | h) | h)
    · rfl
    · exact hupper h
    · exact h
  · exact .inr

/-- A search for a library in the stacks. -/
theorem search_libgui_agrees :
    PlainFilter asciiTables { stackModuleContains := "libgui" } ∧
      ∀ store, SearchAgrees asciiTables store { stackModuleContains := "libgui" } 100 := by
  have hspecial : ∀ c ∈ "libgui".toList, special c = false := by simp [special]
  have hline : '\n' ∉ "libgui".toList := by simp
  have hplain : PlainFilter asciiTables { stackModuleContains := "libgui" } := {
    interface := fun h => nomatch h
    method := fun h => nomatch h
    stackModule := fun _ => ⟨fun c hc => ⟨hspecial c hc, asciiTables_same c⟩, hline⟩ }
  exact ⟨hplain, (search_agrees_iff_plain asciiTables _ (by decide)).2 hplain⟩

/-- An interface with an underscore in its name. -/
def underscoreEvent : BinderEvent where
  id := 1
  timestamp := 0
  pid := 1
  uid := 10000
  code := 1
  flags := 0
  rawParcel := []
  interfaceName? := some "vendor.display_config.IDisplayConfig"

/-- The list shows an event whose interface has the text `display_config`, and the search does not find it:
its pattern asks for a backslash. -/
theorem search_underscore_misses :
    let filter : EventFilter := { interfaceContains := "display_config" }
    let store := EventStore.empty.insert underscoreEvent
    emitSnapshot asciiTables filter store.events = [underscoreEvent] ∧
      (query asciiTables store filter 50 none).items = [] ∧
      ¬SearchAgrees asciiTables store filter 50 := by
  refine ⟨by decide +kernel, by decide +kernel, fun h => ?_⟩
  have hagrees := (searchAgrees_iff (by decide)).1 h underscoreEvent (EventStore.mem_insert.2 (.inl rfl))
  exact absurd hagrees (by rw [EventAgrees]; decide +kernel)

end BinderTracer.App
