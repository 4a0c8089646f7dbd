/-
# Tokens with something between them

Texts that are one token each can be put into one source, in a row, with anything between them
that is skipped: blanks, line feeds, and comments that are closed (`Separator`).  Scanning the
source finds exactly these tokens, each where its text stands, and has nothing to report
(`spaced_tokens_are_found`).

Two things have to be seen, one for each side of a token.

* A separator is skipped up to its end, whatever stands behind it (`records_separator_append`).  A
  line comment has its line feed with it, and a block comment goes up to its first end.
* A token does not go on with what stands behind it, because a separator opens with a quiet
  character: a blank, a line feed, `#` or `/` (`Separator.quiet`).  So a slash stays a slash before
  `/*`, and a star before it does not become an end of a comment.

Where a separator is empty nothing may follow, so only the first and the last may be.
-/
import CpScan.Proofs.Scan.Joining

namespace CpScan

/-! ## 1. Separators -/

/-- What may stand between tokens: a row of blanks, line feeds, line comments with their line feed,
and block comments. -/
inductive Separator : List Char → Prop
  | nil : Separator []
  | blank {c : Char} {more : List Char} (hc : c ∈ Grammar.blanks) (hmore : Separator more) :
      Separator (c :: more)
  | lineComment {body more : List Char} (hbody : '\n' ∉ body) (hmore : Separator more) :
      Separator ('#' :: (body ++ '\n' :: more))
  | blockComment {body more : List Char} (hbody : Grammar.NoEnd body) (hmore : Separator more) :
      Separator ('/' :: '*' :: (body ++ '*' :: '/' :: more))

namespace Separator

/-- No token goes on with the first character of a separator. -/
theorem quiet {sep : List Char} (h : Separator sep) :
    ∀ c more, sep = c :: more → Grammar.Quiet c := by
  intro c more heq
  cases h with
  | nil => cases heq
  | blank hc _ =>
    obtain ⟨rfl, -⟩ := List.cons.inj heq
    exact Grammar.quiet_of_mem_blanks hc
  | lineComment _ _ =>
    obtain ⟨rfl, -⟩ := List.cons.inj heq
    exact ⟨fun hw => Grammar.not_named_of_wordPart hw (by decide), by decide, by decide, by decide⟩
  | blockComment _ _ =>
    obtain ⟨rfl, -⟩ := List.cons.inj heq
    exact ⟨fun hw => Grammar.not_named_of_wordPart hw (by decide), by decide, by decide, by decide⟩

end Separator

/-- A line comment without its line feed is a longest run before it. -/
theorem Grammar.longest_of_lineFeed {body : List Char} (h : '\n' ∉ body) (rest : List Char) :
    Longest (· ≠ '\n') body ('\n' :: rest) := by
  refine longest_iff_stops.mpr ⟨?_, ?_⟩
  · rintro c hc rfl
    exact h hc
  · rintro _ _ ⟨⟩ hne
    exact hne rfl

/-- **A separator before a text only moves it on.** -/
theorem records_separator_append (here : Position) {sep : List Char} (h : Separator sep)
    (text : List Char) :
    SameRecords (piecesFrom here (sep ++ text)) (piecesFrom (here.after sep) text) := by
  induction h generalizing here with
  | nil => exact .refl _
  | @blank c more hc _ ih =>
    have hrule : Grammar.Rule (c :: (more ++ text)) ⟨[c], .skip, more ++ text⟩ := .blank hc
    rw [List.cons_append, piecesFrom_of_rule hrule]
    exact .skip here [c] (ih (here.next c))
  | @lineComment body more hbody _ ih =>
    have hcomment := Grammar.Rule.lineComment
      (Grammar.longest_of_lineFeed hbody (more ++ text))
    have hfeed : Grammar.Rule ('\n' :: (more ++ text)) ⟨['\n'], .skip, more ++ text⟩ :=
      .blank (by decide)
    have hafter : here.after ('#' :: (body ++ '\n' :: more)) =
        (((here.after ('#' :: body)).after ['\n']).after more) := by
      rw [← Position.after_append, ← Position.after_append]
      simp
    rw [hafter, List.cons_append, List.append_assoc, List.cons_append,
      piecesFrom_of_rule hcomment, piecesFrom_of_rule hfeed]
    exact .skip here _ (.skip _ _ (ih _))
  | @blockComment body more hbody _ ih =>
    have hcomment := Grammar.Rule.blockComment
      (Grammar.firstEnd_iff.mpr hbody : Grammar.FirstEnd body (more ++ text))
    have hafter : here.after ('/' :: '*' :: (body ++ '*' :: '/' :: more)) =
        (here.after ('/' :: '*' :: (body ++ ['*', '/']))).after more := by
      rw [← Position.after_append]
      simp
    have htext : '/' :: '*' :: (body ++ '*' :: '/' :: more) ++ text =
        '/' :: '*' :: (body ++ '*' :: '/' :: (more ++ text)) := by
      simp
    rw [hafter, htext, piecesFrom_of_rule hcomment]
    exact .skip here _ (ih _)

/-! ## 2. Texts that are one token -/

/-- Scanned alone, the text is the token `t` and nothing else. -/
structure StandsAlone (text : String) (t : Token) : Prop where
  tokens : (Scan.ofString text).tokens = [t]
  lexeme : t.lexeme = text

/-- **A text that is one token is one piece**: no room is left for another. -/
theorem StandsAlone.rule {text : String} {t : Token} (h : StandsAlone text t) :
    Grammar.Rule text.toList ⟨text.toList, .token t.kind t.literal, []⟩ := by
  have hmem : t ∈ (Scan.ofString text).tokens := by
    rw [h.tokens]
    exact List.mem_singleton.mpr rfl
  have hrule := rule_of_mem_tokens hmem
  rwa [h.lexeme] at hrule

/-- It stays a token where nothing follows, or a quiet character. -/
theorem StandsAlone.piecesFrom_append {text : String} {t : Token} (h : StandsAlone text t)
    (here : Position) {rest : List Char} (hrest : ∀ c more, rest = c :: more → Grammar.Quiet c) :
    piecesFrom here (text.toList ++ rest) =
      ⟨here, text.toList, .token t.kind t.literal⟩ ::
        piecesFrom (here.after text.toList) rest := by
  have hstays := h.rule.behind_token (Grammar.Fades.append [] hrest)
  exact piecesFrom_of_rule hstays here

/-- The token, where its text stands. -/
def Token.placedAt (t : Token) (p : Position) : Token :=
  { t with span := Span.between p (p.after t.lexeme.toList) }

theorem StandsAlone.token?_piece {text : String} {t : Token} (h : StandsAlone text t)
    (here : Position) :
    Piece.token? ⟨here, text.toList, .token t.kind t.literal⟩ = some (t.placedAt here) := by
  have hlexeme := h.lexeme
  subst hlexeme
  simp only [Piece.token?, Token.placedAt, String.ofList_toList, Piece.stop]

/-! ## 3. A row of texts -/

/-- Texts in a row, the separator `lead` before them and one behind each. -/
def spacedText (lead : List Char) : List (String × List Char) → List Char
  | [] => lead
  | (text, sep) :: row => lead ++ (text.toList ++ spacedText sep row)

/-- A row of texts can be spaced: each is one token, separators are separators, and only behind the
last text there may be nothing. -/
structure Spaced (row : List (String × List Char)) : Prop where
  alone : ∀ item ∈ row, ∃ t, StandsAlone item.1 t
  separators : ∀ item ∈ row, Separator item.2
  apart : ∀ item ∈ row.dropLast, item.2 ≠ []

namespace Spaced

variable {text : String} {sep : List Char} {row : List (String × List Char)}

theorem tail (h : Spaced ((text, sep) :: row)) : Spaced row where
  alone item hitem := h.alone item (List.mem_cons_of_mem _ hitem)
  separators item hitem := h.separators item (List.mem_cons_of_mem _ hitem)
  apart item hitem := by
    refine h.apart item ?_
    cases row with
    | nil => cases hitem
    | cons next row => exact List.mem_cons_of_mem _ hitem

/-- What stands behind a text opens with a quiet character, unless nothing does. -/
theorem quiet_behind (h : Spaced ((text, sep) :: row)) :
    ∀ c more, spacedText sep row = c :: more → Grammar.Quiet c := by
  intro c more heq
  have hsep : Separator sep := h.separators _ List.mem_cons_self
  cases row with
  | nil => exact hsep.quiet c more heq
  | cons next row =>
    have hne : sep ≠ [] := h.apart (text, sep) List.mem_cons_self
    obtain ⟨d, ds, rfl⟩ := List.exists_cons_of_ne_nil hne
    obtain ⟨rfl, -⟩ := List.cons.inj heq
    exact hsep.quiet d ds rfl

/-- The first text of a row is found behind the separator, and then the others. -/
theorem records_cons (h : Spaced ((text, sep) :: row)) {lead : List Char} (hlead : Separator lead)
    {t : Token} (ht : StandsAlone text t) (here : Position) :
    SameRecords (piecesFrom here (spacedText lead ((text, sep) :: row)))
      (⟨here.after lead, text.toList, .token t.kind t.literal⟩ ::
        piecesFrom (here.after (lead ++ text.toList)) (spacedText sep row)) := by
  have hskip := records_separator_append here hlead (text.toList ++ spacedText sep row)
  rwa [ht.piecesFrom_append _ h.quiet_behind, ← Position.after_append] at hskip

/-- **What is found in a row**: nothing to report, as many tokens as there are texts, and each
text's token where the text stands. -/
theorem scan_row (h : Spaced row) {lead : List Char} (hlead : Separator lead) (here : Position) :
    (piecesFrom here (spacedText lead row)).filterMap Piece.report? = [] ∧
      ((piecesFrom here (spacedText lead row)).filterMap Piece.token?).length = row.length ∧
      ∀ i item, row[i]? = some item → ∀ t, StandsAlone item.1 t →
        ((piecesFrom here (spacedText lead row)).filterMap Piece.token?)[i]? =
          some (t.placedAt (here.after (spacedText lead (row.take i)))) := by
  induction row generalizing lead here with
  | nil =>
    have hskip := records_separator_append here hlead []
    rw [List.append_nil, piecesFrom_nil] at hskip
    refine ⟨hskip.reports, ?_, ?_⟩
    · rw [spacedText, hskip.tokens]
      rfl
    · intro i item hitem
      simp at hitem
  | cons first row ih =>
    obtain ⟨text, sep⟩ := first
    obtain ⟨t₀, ht₀⟩ := h.alone _ List.mem_cons_self
    have hsame := h.records_cons hlead ht₀ here
    obtain ⟨ihReports, ihLength, ihTokens⟩ := ih h.tail (h.separators _ List.mem_cons_self)
      (here.after (lead ++ text.toList))
    have htokens := hsame.tokens
    rw [List.filterMap_cons_some (ht₀.token?_piece _)] at htokens
    refine ⟨?_, ?_, ?_⟩
    · rw [hsame.reports]
      exact ihReports
    · rw [htokens, List.length_cons, ihLength, List.length_cons]
    · intro i item hitem t ht
      rw [htokens]
      cases i with
      | zero =>
        obtain rfl : (text, sep) = item := by simpa using hitem
        have hsame : t = t₀ := List.singleton_inj.mp (ht.tokens.symm.trans ht₀.tokens)
        rw [hsame]
        rfl
      | succ i =>
        rw [List.getElem?_cons_succ] at hitem ⊢
        rw [ihTokens i item hitem t ht, ← Position.after_append, List.take_succ_cons]
        simp only [spacedText, List.append_assoc]

end Spaced

/-! ## 4. The whole source -/

/-- **Scanning undoes spacing out.**  Let each text of a row, scanned alone, be one token that is
all of the text.  Put the texts into one source, with a separator before them, one behind each, and
none of those between two texts empty.  The scan of the source reports nothing and has as many
tokens as there are texts; the `i`-th is the token of the `i`-th text, and its span is the place of
the text, which stands behind `before`.  The machine finds the same, and counts lines in 32 bits if
there are not too many of them. -/
theorem spaced_tokens_are_found (lead : List Char) (row : List (String × List Char))
    (hlead : Separator lead) (halone : ∀ item ∈ row, ∃ t, StandsAlone item.1 t)
    (hseparators : ∀ item ∈ row, Separator item.2) (hapart : ∀ item ∈ row.dropLast, item.2 ≠ []) :
    let source := String.ofList (spacedText lead row)
    (Scan.ofString source).reports = [] ∧
      (Scan.ofString source).tokens.length = row.length ∧
      (∀ i item, row[i]? = some item → ∀ t, StandsAlone item.1 t →
        let before := spacedText lead (row.take i)
        (Scan.ofString source).tokens[i]? = some ⟨t.kind, item.1, t.literal,
          ⟨byteLength before, byteLength before + item.1.utf8ByteSize, 1 + lineFeeds before⟩⟩) ∧
      (Scanner.run source {}).tokens.toList = (Scan.ofString source).tokens ∧
      (Scanner.run source {}).errors = 0 ∧
      (Scanner.run source {}).sink.diagnostics = #[] ∧
      (lineFeeds (spacedText lead row) < 2 ^ 32 - 1 →
        ∀ s, Scanner.Head source {} s → s.cursor.line < 2 ^ 32) := by
  intro source
  have htext : source.toList = spacedText lead row := String.toList_ofList
  obtain ⟨hreports, hlength, htokens⟩ :=
    Spaced.scan_row ⟨halone, hseparators, hapart⟩ hlead {}
  rw [← htext] at hreports hlength htokens
  have hnone : (Scan.ofString source).reports = [] := hreports
  obtain ⟨hrun, -, hsink, herrors, -⟩ := Scanner.run_eq source {}
  refine ⟨hnone, hlength, ?_, hrun, ?_, ?_, ?_⟩
  · intro i item hitem t ht before
    refine (htokens i item hitem t ht).trans ?_
    have hsize : byteLength item.1.toList = item.1.utf8ByteSize := by
      rw [← utf8ByteSize_ofList, String.ofList_toList]
    rw [Token.placedAt, ht.lexeme, Scanner.after_start, Span.between, Position.after_offset, hsize]
  · rw [herrors, hnone]
    rfl
  · rw [← Array.toList_inj, hsink, Collector.absorb_diagnostics, Scan.diagnostics, hnone]
    rfl
  · intro hfeeds s hs
    refine hs.line_lt ?_
    rw [htext]
    exact hfeeds

/-- A slash before a block comment, a string that holds what opens comments, and two numbers that
only a comment keeps apart. -/
theorem spaced_tokens_are_found_slash_and_comment :
    (Scan.ofString "/* * / */ //***/'#/*'\n1#.5\n.5").reports = [] ∧
      (Scan.ofString "/* * / */ //***/'#/*'\n1#.5\n.5").tokens[3]? =
        some ⟨.float, ".5", some (.float (Double.ofDigits [] ['5'])), ⟨27, 29, 3⟩⟩ := by
  let row : List (String × List Char) :=
    [("/", "/***/".toList), ("'#/*'", ['\n']), ("1", "#.5\n".toList), (".5", [])]
  have hlead : Separator "/* * / */ ".toList :=
    @Separator.blockComment " * / ".toList [' '] (@Grammar.closeComment_none [] _ (by decide))
      (.blank (by decide) .nil)
  have hslash : StandsAlone "/" ⟨.slash, "/", none, ⟨0, 1, 1⟩⟩ := ⟨by decide +kernel, rfl⟩
  have hstring : StandsAlone "'#/*'" ⟨.string, "'#/*'", some (.str "#/*"), ⟨0, 5, 1⟩⟩ :=
    ⟨by decide +kernel, rfl⟩
  have hone : StandsAlone "1" ⟨.int, "1", some (.int 1), ⟨0, 1, 1⟩⟩ := ⟨by decide +kernel, rfl⟩
  have hhalf : StandsAlone ".5"
      ⟨.float, ".5", some (.float (Double.ofDigits [] ['5'])), ⟨0, 2, 1⟩⟩ :=
    ⟨by decide +kernel, rfl⟩
  have halone : ∀ item ∈ row, ∃ t, StandsAlone item.1 t := by
    intro item hitem
    simp only [row, List.mem_cons, List.not_mem_nil, or_false] at hitem
    rcases hitem with rfl | rfl | rfl | rfl
    · exact ⟨_, hslash⟩
    · exact ⟨_, hstring⟩
    · exact ⟨_, hone⟩
    · exact ⟨_, hhalf⟩
  have hseparators : ∀ item ∈ row, Separator item.2 := by
    intro item hitem
    simp only [row, List.mem_cons, List.not_mem_nil, or_false] at hitem
    rcases hitem with rfl | rfl | rfl | rfl
    · exact @Separator.blockComment ['*'] [] (@Grammar.closeComment_none [] _ (by decide)) .nil
    · exact .blank (by decide) .nil
    · exact @Separator.lineComment ".5".toList [] (by decide) .nil
    · exact .nil
  obtain ⟨hreports, -, htokens, -⟩ := spaced_tokens_are_found "/* * / */ ".toList row hlead halone
    hseparators (by decide)
  exact ⟨hreports, htokens 3 _ rfl _ hhalf⟩

end CpScan
