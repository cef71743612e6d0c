import Mathlib.Data.List.Forall2
import NamedQuery.Json.Document
import NamedQuery.Json.Printer

/-! # Reading JSON piece by piece

A text that is a document may stand inside a longer text, where a value is waited for, provided
that what follows does not continue its last word (`Breaks`): it is read as the same document, and
reading goes on behind it (`State.read_document`). Besides documents, only marks and quoted names
occur in a compact text (`State.read_mark`, `State.read_quoted`). -/

namespace NamedQuery.Json

open Text (hexValue?)

/-! ## Scanning -/

/-- What stands before such a text is not continued by it: it is empty or begins with a mark. -/
def Breaks : List Char → Prop
  | [] => True
  | c :: _ => (punctuation? c).isSome

theorem separates_of_punctuation? {c : Char} (h : (punctuation? c).isSome) :
    isSpace c = false ∧ c ≠ '"' := by
  have hmark : c ∈ ['[', ']', '{', '}', ',', ':'] := by
    by_contra hnone
    simp only [List.mem_cons, List.not_mem_nil, or_false, not_or] at hnone
    simp [punctuation?, hnone] at h
  have hmarks : ['[', ']', '{', '}', ',', ':'].all fun d => !isSpace d && d != '"' := rfl
  have hc := List.all_eq_true.1 hmarks c hmark
  rwa [Bool.and_eq_true, Bool.not_eq_true', bne_iff_ne] at hc

theorem scan_bare_of_breaks (word : List Char) {rest : List Char} (hrest : Breaks rest) :
    scan (.bare word) rest =
      (bareToken? word.reverse).bind fun token => (scan .between rest).map (token :: ·) := by
  cases rest with
  | nil =>
    rw [scan, scan, Option.map_eq_bind]
    rfl
  | cons c cs =>
    obtain ⟨hspace, hquote⟩ := separates_of_punctuation? hrest
    obtain ⟨mark, hmark⟩ := Option.isSome_iff_exists.1 hrest
    simp only [scan, hspace, hmark, if_neg hquote, Bool.false_eq_true, if_false,
      Option.bind_eq_bind, Option.map_map, Function.comp_def]

/-- Scanning stops in between tokens where a text ends that is followed by a break. -/
theorem scan_append {rest : List Char} (hrest : Breaks rest) (state : Scan) (cs : List Char)
    {tokens : List Token} (h : scan state cs = some tokens) :
    scan state (cs ++ rest) = (scan .between rest).map (tokens ++ ·) := by
  fun_induction scan state cs generalizing tokens with
  | case1 => simp_all
  -- A bare word has no end of its own, so this is where the break counts.
  | case6 word =>
    obtain ⟨token, htoken, rfl⟩ := Option.map_eq_some_iff.1 h
    rw [List.nil_append, scan_bare_of_breaks word hrest, htoken]
    rfl
  -- In these four a token ends, and the tokens behind it are those of the shorter text.
  | case4 c cs hspace hquote mark hmark ih =>
    obtain ⟨later, hlater, rfl⟩ := Option.map_eq_some_iff.1 h
    simp [scan, hspace, hquote, hmark, ih hlater, Function.comp_def]
  | case11 pieces cs ih =>
    obtain ⟨later, hlater, rfl⟩ := Option.map_eq_some_iff.1 h
    simp [scan, ih hlater, Function.comp_def]
  | case7 word c cs hspace ih =>
    obtain ⟨token, htoken, h⟩ := Option.bind_eq_some_iff.1 h
    obtain ⟨later, hlater, rfl⟩ := Option.map_eq_some_iff.1 h
    simp [scan, hspace, htoken, ih hlater, Function.comp_def]
  | case9 word c cs hspace hquote mark hmark ih =>
    obtain ⟨token, htoken, h⟩ := Option.bind_eq_some_iff.1 h
    obtain ⟨later, hlater, rfl⟩ := Option.map_eq_some_iff.1 h
    simp [scan, hspace, hquote, hmark, htoken, ih hlater, Function.comp_def]
  | case14 pieces c cs hquote hbackslash hcontrol ih =>
    simp [scan, hquote, hbackslash, hcontrol, ih h]
  | case19 =>
    rename_i hdigit _ ih
    simpa [scan, hdigit] using ih h
  | case20 =>
    rename_i hdigit _ _ ih
    simpa [scan, hdigit] using ih h
  | _ => simp_all [scan]

/-! ## Quoted strings -/

/-- A piece of a string that stands for a character. -/
inductive Spells : Piece → Char → Prop where
  | char (c : Char) : Spells (.char c) c
  | unit {c : Char} : c.toNat < 0x20 → Spells (.unit c.toNat) c

theorem hexValue?_hexDigit : ∀ n < 16, hexValue? (hexDigit n) = some n := by
  decide

theorem scan_escape {letter c : Char} (h : escape? letter = some c) (hletter : letter ≠ 'u')
    (pieces : List Piece) (rest : List Char) :
    scan (.string pieces) ('\\' :: letter :: rest) = scan (.string (.char c :: pieces)) rest := by
  simp [scan, h, hletter]

theorem scan_unit {c : Char} (h : c.toNat < 0x20) (pieces : List Piece) (rest : List Char) :
    scan (.string pieces)
        ('\\' :: 'u' :: '0' :: '0' :: hexDigit (c.toNat / 16) :: hexDigit (c.toNat % 16) :: rest) =
      scan (.string (.unit c.toNat :: pieces)) rest := by
  have hhigh := hexValue?_hexDigit (c.toNat / 16) (by omega)
  have hlow := hexValue?_hexDigit (c.toNat % 16) (by omega)
  have hzero : hexValue? '0' = some 0 := by decide
  have hvalue : c.toNat / 16 * 16 + c.toNat % 16 = c.toNat := by omega
  simp [scan, hhigh, hlow, hzero, hvalue]

theorem scan_escaped (c : Char) (pieces : List Piece) (rest : List Char) :
    ∃ piece, Spells piece c ∧
      scan (.string pieces) (escaped c ++ rest) = scan (.string (piece :: pieces)) rest := by
  have hletter : ∀ letter, escape? letter = some c → letter ≠ 'u' →
      ∃ piece, Spells piece c ∧
        scan (.string pieces) (['\\', letter] ++ rest) = scan (.string (piece :: pieces)) rest :=
    fun letter h hne => ⟨.char c, .char c, scan_escape h hne pieces rest⟩
  -- A letter behind a backslash, the unit of another control character, or the character itself.
  unfold escaped
  split_ifs with hquote hbackslash hline htab hreturn hback hfeed hcontrol
  · exact hletter _ (by subst hquote; rfl) (by decide)
  · exact hletter _ (by subst hbackslash; rfl) (by decide)
  · exact hletter _ (by subst hline; rfl) (by decide)
  · exact hletter _ (by subst htab; rfl) (by decide)
  · exact hletter _ (by subst hreturn; rfl) (by decide)
  · exact hletter _ (by subst hback; rfl) (by decide)
  · exact hletter _ (by subst hfeed; rfl) (by decide)
  · exact ⟨.unit c.toNat, .unit hcontrol, scan_unit hcontrol pieces rest⟩
  · exact ⟨.char c, .char c, by simp [scan, hquote, hbackslash, hcontrol]⟩

theorem assemble_of_spells {pieces : List Piece} {cs : List Char}
    (h : List.Forall₂ Spells pieces cs) : assemble pieces = some cs := by
  induction h with
  | nil => rfl
  | @cons piece c pieces cs hpiece _ ih =>
    cases hpiece with
    | char => rw [assemble, ih, Option.map_some]
    | unit hcontrol =>
      -- A control character is no half of a pair, so it stands for itself whatever follows.
      have hhigh : isHighHalf c.toNat = false := by
        simp only [isHighHalf, Bool.and_eq_false_iff, decide_eq_false_iff_not]
        omega
      have hlow : isLowHalf c.toNat = false := by
        simp only [isLowHalf, Bool.and_eq_false_iff, decide_eq_false_iff_not]
        omega
      have hlast : assemble (.unit c.toNat :: pieces) =
          (assemble pieces).map (Char.ofNat c.toNat :: ·) := by
        cases pieces with
        | nil => simp [assemble, hhigh, hlow]
        | cons next later => cases next <;> simp [assemble, hhigh, hlow]
      rw [hlast, ih, Option.map_some, Char.ofNat_toNat]

theorem scan_flatMap_escaped (cs : List Char) (pieces : List Piece) (rest : List Char) :
    ∃ more, List.Forall₂ Spells more cs ∧
      scan (.string pieces) (cs.flatMap escaped ++ rest) =
        scan (.string (more.reverse ++ pieces)) rest := by
  induction cs generalizing pieces with
  | nil => exact ⟨[], .nil, rfl⟩
  | cons c cs ih =>
    obtain ⟨piece, hpiece, hscan⟩ := scan_escaped c pieces (cs.flatMap escaped ++ rest)
    obtain ⟨more, hmore, hrest⟩ := ih (piece :: pieces)
    refine ⟨piece :: more, .cons hpiece hmore, ?_⟩
    rw [List.flatMap_cons, List.append_assoc, hscan, hrest, List.reverse_cons, List.append_assoc,
      List.singleton_append]

/-- A quoted string is one token, the string. -/
theorem scan_quoted (s : String) (rest : List Char) :
    scan .between (quoted s ++ rest) = (scan .between rest).map (.string (some s) :: ·) := by
  obtain ⟨pieces, hpieces, hscan⟩ := scan_flatMap_escaped s.toList [] ('"' :: rest)
  have hopen : scan .between (quoted s ++ rest) =
      scan (.string []) (s.toList.flatMap escaped ++ '"' :: rest) := by
    simp [quoted, scan, isSpace]
  -- Pieces are kept last first.
  have htoken : stringToken pieces.reverse = .string (some s) := by
    rw [stringToken, List.reverse_reverse, assemble_of_spells hpieces, Option.map_some,
      String.ofList_toList]
  rw [hopen, hscan, List.append_nil, scan, if_pos rfl, htoken]

/-! ## Taking in a text -/

namespace Document.State

/-- What stands outside of all open containers is put around a state. -/
def within (outer : List Frame) : State → State
  | .value inner => .value (inner ++ outer)
  | .firstItem inner => .firstItem (inner ++ outer)
  | .afterItem items inner => .afterItem items (inner ++ outer)
  | .firstName inner => .firstName (inner ++ outer)
  | .nextName entries inner => .nextName entries (inner ++ outer)
  | .colon entries name inner => .colon entries name (inner ++ outer)
  | .afterEntry entries inner => .afterEntry entries (inner ++ outer)
  | .complete document => place document outer

theorem within_place (document : Document) (inner outer : List Frame) :
    (place document inner).within outer = place document (inner ++ outer) := by
  cases inner with
  | nil => rfl
  | cons frame inner => cases frame <;> rfl

theorem begin_within {inner : List Frame} {token : Token} {state : State}
    (h : begin inner token = some state) (outer : List Frame) :
    begin (inner ++ outer) token = some (state.within outer) := by
  cases token with
  | null | bool | number | string =>
    cases h
    rw [begin, within_place]
  | openArray | openObject =>
    cases h
    rfl
  | closeArray | closeObject | comma | colon => cases h

theorem step_firstItem {token : Token} (h : token ≠ .closeArray) (outer : List Frame) :
    (State.firstItem outer).step token = (State.value (.array [] :: outer)).step token := by
  cases token with
  | closeArray => exact absurd rfl h
  | _ => rfl

theorem step_within {state next : State} {token : Token} (h : state.step token = some next)
    (outer : List Frame) : (state.within outer).step token = some (next.within outer) := by
  -- Only where a value is complete does a step ask what it stands in.
  cases state with
  | value inner => exact begin_within h outer
  | complete => cases h
  | firstItem inner =>
    by_cases hclose : token = .closeArray
    · subst hclose
      cases h
      rw [within_place]
      rfl
    · rw [step_firstItem hclose] at h
      exact (step_firstItem hclose _).trans (begin_within h outer)
  | afterItem | firstName | nextName | colon | afterEntry =>
    cases token <;> cases h <;> first | rfl | rw [within_place]; rfl

theorem foldlM_step_within {state next : State} {tokens : List Token}
    (h : tokens.foldlM step state = some next) (outer : List Frame) :
    tokens.foldlM step (state.within outer) = some (next.within outer) := by
  induction tokens generalizing state with
  | nil =>
    cases h
    rfl
  | cons token tokens ih =>
    rw [List.foldlM_cons] at h
    obtain ⟨middle, hstep, hrest⟩ := Option.bind_eq_some_iff.1 h
    rw [List.foldlM_cons, step_within hstep outer]
    exact ih hrest

/-- Takes in a text, beginning between tokens. -/
def read (state : State) (cs : List Char) : Option State := do
  (← tokens? cs).foldlM step state

theorem read_of_scan {cs rest : List Char} {token : Token}
    (h : scan .between cs = (scan .between rest).map (token :: ·)) (state : State) :
    state.read cs = (state.step token).bind (·.read rest) := by
  unfold read tokens?
  rw [h]
  cases scan .between rest with
  | none => cases state.step token <;> rfl
  | some tokens => rfl

theorem read_mark {c : Char} {token : Token} (h : punctuation? c = some token) (state : State)
    (rest : List Char) : state.read (c :: rest) = (state.step token).bind (·.read rest) := by
  obtain ⟨hspace, hquote⟩ := separates_of_punctuation? (Option.isSome_of_eq_some h)
  exact read_of_scan (by simp [scan, hspace, hquote, h]) state

theorem read_quoted (s : String) (state : State) (rest : List Char) :
    state.read (quoted s ++ rest) = (state.step (.string (some s))).bind (·.read rest) :=
  read_of_scan (scan_quoted s rest) state

end Document.State

open Document (State)

theorem Document.ofText?_eq_some_iff {cs : List Char} {document : Document} :
    Document.ofText? cs = some document ↔
      State.read (.value []) cs = some (.complete document) := by
  unfold Document.ofText? State.read Document.ofTokens?
  cases tokens? cs with
  | none => simp
  | some tokens =>
    simp only [Option.bind_eq_bind, Option.bind_some]
    cases tokens.foldlM State.step (.value []) with
    | none => simp
    | some state => cases state <;> simp

section

variable {cs rest : List Char} {document : Document}

theorem tokens_of_ofText? (h : Document.ofText? cs = some document) (hrest : Breaks rest) :
    ∃ tokens, tokens.foldlM State.step (.value []) = some (.complete document) ∧
      tokens? (cs ++ rest) = (tokens? rest).map (tokens ++ ·) := by
  obtain ⟨tokens, htokens, hfold⟩ :=
    Option.bind_eq_some_iff.1 (Document.ofText?_eq_some_iff.1 h)
  exact ⟨tokens, hfold, scan_append hrest .between cs htokens⟩

/-- Where a value is waited for, the text of a document is read as this document. -/
theorem State.read_document (h : Document.ofText? cs = some document) (hrest : Breaks rest)
    (outer : List Document.Frame) :
    State.read (.value outer) (cs ++ rest) = (State.place document outer).read rest := by
  obtain ⟨tokens, hfold, htokens⟩ := tokens_of_ofText? h hrest
  have hwithin : tokens.foldlM State.step (.value outer) = some (.place document outer) :=
    State.foldlM_step_within hfold outer
  unfold State.read
  rw [htokens]
  cases tokens? rest with
  | none => rfl
  | some more =>
    simp only [Option.map_some, Option.bind_eq_bind, Option.bind_some, List.foldlM_append, hwithin]

theorem State.read_firstItem (h : Document.ofText? cs = some document) (hrest : Breaks rest)
    (outer : List Document.Frame) :
    State.read (.firstItem outer) (cs ++ rest) =
      (State.place document (.array [] :: outer)).read rest := by
  rw [← State.read_document h hrest]
  obtain ⟨tokens, hfold, htokens⟩ := tokens_of_ofText? h hrest
  unfold State.read
  rw [htokens]
  cases tokens with
  | nil => cases hfold
  | cons first tokens =>
    -- A document does not begin with a closing bracket.
    have hfirst : first ≠ .closeArray := by
      rintro rfl
      cases hfold
    cases tokens? rest with
    | none => rfl
    | some more =>
      simp only [Option.map_some, Option.bind_eq_bind, Option.bind_some, List.cons_append,
        List.foldlM_cons, State.step_firstItem hfirst]

end

end NamedQuery.Json
