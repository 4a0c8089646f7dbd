/-
# Masking what is no token

A source is masked by writing a space over each byte of each piece that is no token; line feeds
stay.  The masked source has the same tokens at the same places, and nothing in it is malformed
(`masking_keeps_tokens`).

There are two sides to this.

* A masked piece has become blanks and line feeds, which are skipped.  It has kept its bytes and its
  line feeds, so everything behind it is where it was (`Piece.masked_after`).
* A token has kept its text, but it was found by looking at what stood behind it.  That has *faded*:
  where a token follows, its first character is the one that was there, and everything else is now
  quiet (`maskedText_fades`).  A token stays what it is when the text behind it fades.

Masking is said in bytes (`Scan.maskedBytes`).  The proof needs characters (`Piece.masked`): a
character of several bytes becomes as many spaces.
-/
import CpScan.Proofs.Scan.Joining
import CpScan.Proofs.Text.Encoding

namespace CpScan

/-! ## 1. Masking bytes -/

/-- A byte that is not a token's: a line feed stays, and all else becomes a space. -/
def maskByte (b : UInt8) : UInt8 := if b = 0x0A then b else 0x20

namespace Piece

/-- Whether the piece is a token. -/
def isToken (p : Piece) : Bool := p.token?.isSome

/-- The bytes of a piece. -/
def bytes (p : Piece) : List UInt8 := p.text.flatMap String.utf8EncodeChar

/-- The bytes that the piece has in the masked source. -/
def maskedBytes (p : Piece) : List UInt8 := if p.isToken then p.bytes else p.bytes.map maskByte

end Piece

/-- The bytes of the masked source. -/
def Scan.maskedBytes (s : Scan) : List UInt8 := s.pieces.flatMap Piece.maskedBytes

/-! ## 2. Masking characters -/

/-- What a character becomes: as many spaces as it has bytes, unless it is a line feed. -/
def maskChar (c : Char) : List Char := if c = '\n' then ['\n'] else List.replicate c.utf8Size ' '

/-- The text that the piece has in the masked source. -/
def Piece.masked (p : Piece) : List Char := if p.isToken then p.text else p.text.flatMap maskChar

/-- The masked text of a text that starts at the place `here`. -/
def maskedText (here : Position) (text : List Char) : List Char :=
  (piecesFrom here text).flatMap Piece.masked

/-! ## 3. The bytes of masked characters -/

/-- A masked character has the masked bytes. -/
theorem maskChar_bytes (c : Char) :
    (maskChar c).flatMap String.utf8EncodeChar = (String.utf8EncodeChar c).map maskByte := by
  unfold maskChar
  split
  · next h =>
    subst h
    rfl
  · next h =>
    have hspaces : (List.replicate c.utf8Size ' ').flatMap String.utf8EncodeChar =
        List.replicate c.utf8Size 0x20 := by
      induction c.utf8Size with
      | zero => rfl
      | succ n ih =>
        rw [List.replicate_succ, List.flatMap_cons, ih]
        rfl
    rw [hspaces, eq_comm, List.eq_replicate_iff, List.length_map, String.length_utf8EncodeChar]
    refine ⟨rfl, ?_⟩
    intro b hb
    obtain ⟨b', hb', rfl⟩ := List.mem_map.mp hb
    refine if_neg ?_
    rintro rfl
    exact h (eq_lineFeed_of_mem_utf8EncodeChar hb')

/-- A masked piece has the masked bytes. -/
theorem Piece.masked_bytes (p : Piece) :
    p.masked.flatMap String.utf8EncodeChar = p.maskedBytes := by
  unfold masked maskedBytes bytes
  split
  · rfl
  · rw [List.flatMap_assoc, List.map_flatMap]
    exact congrArg (p.text.flatMap ·) (funext maskChar_bytes)

/-! ## 4. A masked piece is skipped, and keeps its place -/

theorem maskChar_blank (c : Char) : ∀ d ∈ maskChar c, d ∈ Grammar.blanks := by
  intro d hd
  unfold maskChar at hd
  split at hd
  · rw [List.mem_singleton.mp hd]
    decide
  · rw [List.eq_of_mem_replicate hd]
    decide

theorem maskChar_ne_nil (c : Char) : maskChar c ≠ [] := by
  unfold maskChar
  split
  · exact List.cons_ne_nil _ _
  · have hpos := c.utf8Size_pos
    intro hnil
    rw [List.replicate_eq_nil_iff] at hnil
    omega

/-- Going over a masked character leads to where the character led. -/
theorem maskChar_after (here : Position) (c : Char) : here.after (maskChar c) = here.next c := by
  unfold maskChar
  split
  · next h =>
    subst h
    rfl
  · next h =>
    have hbytes : byteLength (List.replicate c.utf8Size ' ') = c.utf8Size := by
      induction c.utf8Size with
      | zero => rfl
      | succ n ih =>
        rw [List.replicate_succ, byteLength_cons, ih, Nat.add_comm]
        rfl
    have hfeeds : lineFeeds (List.replicate c.utf8Size ' ') = 0 := by
      rw [lineFeeds_eq_zero]
      intro hmem
      exact absurd (List.eq_of_mem_replicate hmem) (by decide)
    rw [Position.after_eq_shift, hbytes, hfeeds]
    simp only [Position.shift, Position.next, if_neg h, Nat.add_zero]

theorem after_flatMap_maskChar (here : Position) (text : List Char) :
    here.after (text.flatMap maskChar) = here.after text := by
  induction text generalizing here with
  | nil => rfl
  | cons c text ih =>
    rw [List.flatMap_cons, Position.after_append, maskChar_after, ih, Position.after_cons]

/-- **A masked piece ends where the piece did.** -/
theorem Piece.masked_after (here : Position) (p : Piece) :
    here.after p.masked = here.after p.text := by
  unfold masked
  split
  · rfl
  · exact after_flatMap_maskChar here p.text

/-! ## 5. What stands behind a token fades -/

@[simp] theorem maskedText_nil (here : Position) : maskedText here [] = [] := by
  rw [maskedText, piecesFrom_nil, List.flatMap_nil]

section MaskedText

variable {taken rest : List Char} {outcome : Outcome}

/-- A text is masked piece by piece. -/
theorem maskedText_of_rule (hrule : Grammar.Rule (taken ++ rest) ⟨taken, outcome, rest⟩)
    (here : Position) :
    maskedText here (taken ++ rest) =
      Piece.masked ⟨here, taken, outcome⟩ ++ maskedText (here.after taken) rest := by
  rw [maskedText, piecesFrom_of_rule hrule, List.flatMap_cons]
  rfl

theorem masked_token (here : Position) (taken : List Char) (kind : Kind)
    (literal : Option Literal) : Piece.masked ⟨here, taken, .token kind literal⟩ = taken := rfl

theorem masked_of_not_token (here : Position) (taken : List Char)
    (h : ¬ ∃ kind literal, outcome = .token kind literal) :
    Piece.masked ⟨here, taken, outcome⟩ = taken.flatMap maskChar := by
  cases outcome with
  | token kind literal => exact absurd ⟨kind, literal, rfl⟩ h
  | report error => rfl
  | skip => rfl

/-- A piece that is no token opens with a quiet character when it is masked. -/
theorem flatMap_maskChar_quiet (h : taken ≠ []) :
    ∃ c more, taken.flatMap maskChar = c :: more ∧ Grammar.Quiet c := by
  obtain ⟨d, ds, rfl⟩ := List.exists_cons_of_ne_nil h
  obtain ⟨c, more, hc⟩ := List.exists_cons_of_ne_nil (maskChar_ne_nil d)
  refine ⟨c, more ++ ds.flatMap maskChar, by rw [List.flatMap_cons, hc, List.cons_append], ?_⟩
  exact Grammar.quiet_of_mem_blanks (maskChar_blank d c (hc ▸ List.mem_cons_self))

/-- What can be seen of a masked text from before it: it is empty if the text is, its first piece is
a token and stays, or it opens with a quiet character. -/
theorem maskedText_cases (here : Position) (text : List Char) :
    (text = [] ∧ maskedText here text = []) ∨
      (∃ taken rest, taken ≠ [] ∧ text = taken ++ rest ∧
        maskedText here text = taken ++ maskedText (here.after taken) rest) ∨
      ∃ c more, maskedText here text = c :: more ∧ Grammar.Quiet c := by
  induction text using rule_induction with
  | nil => exact .inl ⟨rfl, maskedText_nil here⟩
  | piece taken outcome rest hrule =>
    refine .inr ?_
    rw [maskedText_of_rule hrule]
    by_cases htoken : ∃ kind literal, outcome = .token kind literal
    · obtain ⟨kind, literal, rfl⟩ := htoken
      exact .inl ⟨taken, rest, hrule.taken_ne_nil, rfl, rfl⟩
    · obtain ⟨c, more, hc, hquiet⟩ := flatMap_maskChar_quiet hrule.taken_ne_nil
      rw [masked_of_not_token here taken htoken, hc, List.cons_append]
      exact .inr ⟨c, _, rfl, hquiet⟩

/-- A masked text opens with a quiet character, or as the text does. -/
theorem maskedText_head (here : Position) (text : List Char) (c : Char) (more : List Char)
    (h : maskedText here text = c :: more) : Grammar.Quiet c ∨ ∃ more₀, text = c :: more₀ := by
  rcases maskedText_cases here text with ⟨-, hnil⟩ | ⟨taken, rest, hne, rfl, heq⟩ | ⟨d, _, heq, hq⟩
  · rw [hnil] at h
    cases h
  · obtain ⟨d, ds, rfl⟩ := List.exists_cons_of_ne_nil hne
    rw [heq] at h
    obtain ⟨rfl, -⟩ := List.cons.inj h
    exact .inr ⟨_, rfl⟩
  · rw [heq] at h
    obtain ⟨rfl, -⟩ := List.cons.inj h
    exact .inl hq

/-- **A text fades when it is masked.**  Behind a token of one character the next character counts
too; it is the first of what is masked behind that token. -/
theorem maskedText_fades (here : Position) (text : List Char) :
    Grammar.Fades text (maskedText here text) := by
  rcases maskedText_cases here text with
    ⟨rfl, hnil⟩ | ⟨taken, rest, hne, rfl, heq⟩ | ⟨d, _, heq, hq⟩
  · rw [hnil]
    exact ⟨by rintro _ _ ⟨⟩, by rintro _ _ _ ⟨⟩⟩
  · rw [heq]
    match taken, hne with
    | [c], _ =>
      refine ⟨?_, ?_⟩
      · rintro _ _ ⟨⟩
        exact .inr ⟨_, rfl⟩
      · intro _ d more h
        obtain ⟨rfl, hmore⟩ := List.cons.inj h
        rcases maskedText_head _ rest d more hmore with hquiet | ⟨more₀, rfl⟩
        · exact .inr (.inl hquiet)
        · exact .inr (.inr ⟨more₀, rfl⟩)
    | c :: d :: ds, _ => exact .of_two c d _ _
  · rw [heq]
    exact .of_quiet hq _ _

end MaskedText

/-! ## 6. The masked source -/

/-- **Masking keeps exactly the tokens.**  Going along the pieces, a token is found again because
the text behind it has faded, and the rest is skipped up to the place where it ended. -/
theorem records_maskedText (here : Position) (text : List Char) :
    SameRecords (piecesFrom here (maskedText here text))
      ((piecesFrom here text).filter Piece.isToken) := by
  induction text using rule_induction generalizing here with
  | nil =>
    rw [maskedText_nil, piecesFrom_nil]
    exact .refl _
  | piece taken outcome rest hrule ih =>
    rw [maskedText_of_rule hrule, piecesFrom_of_rule hrule]
    by_cases htoken : ∃ kind literal, outcome = .token kind literal
    · obtain ⟨kind, literal, rfl⟩ := htoken
      have hstays := hrule.behind_token (maskedText_fades (here.after taken) rest)
      rw [masked_token, piecesFrom_of_rule hstays, List.filter_cons_of_pos rfl]
      exact (ih _).cons _
    · have hblank : ∀ c ∈ taken.flatMap maskChar, c ∈ Grammar.blanks := by
        intro c hc
        obtain ⟨d, -, hd⟩ := List.mem_flatMap.mp hc
        exact maskChar_blank d c hd
      have hskip := records_blanks_append here hblank (maskedText (here.after taken) rest)
      have hnot : ¬ (Piece.isToken ⟨here, taken, outcome⟩ = true) := by
        cases outcome with
        | token kind literal => exact absurd ⟨kind, literal, rfl⟩ htoken
        | report error => exact Bool.false_ne_true
        | skip => exact Bool.false_ne_true
      rw [after_flatMap_maskChar] at hskip
      rw [masked_of_not_token here taken htoken, List.filter_cons_of_neg hnot]
      exact hskip.trans (ih _)

/-- Masking keeps every place, in particular the last. -/
theorem maskedText_after (here : Position) (text : List Char) :
    here.after (maskedText here text) = here.after text := by
  induction text using rule_induction generalizing here with
  | nil => rw [maskedText_nil]
  | piece taken outcome rest hrule ih =>
    rw [maskedText_of_rule hrule, Position.after_append, Piece.masked_after, ih,
      Position.after_append]

theorem tokens_filter_isToken (ps : List Piece) :
    (ps.filter Piece.isToken).filterMap Piece.token? = ps.filterMap Piece.token? := by
  rw [List.filterMap_filter]
  refine List.filterMap_congr fun p _ => ?_
  unfold Piece.isToken
  cases p.token? <;> rfl

theorem reports_filter_isToken (ps : List Piece) :
    (ps.filter Piece.isToken).filterMap Piece.report? = [] := by
  rw [List.filterMap_eq_nil_iff]
  intro p hp
  have htoken := (List.mem_filter.mp hp).2
  rcases p.token?_or_report? with hnone | hnone
  · rw [Piece.isToken, hnone] at htoken
    cases htoken
  · exact hnone

/-- **Masking everything that is no token is neutral.**  There is one source with the masked bytes.
Its scan has the tokens of the source, each with its kind, lexeme, value, bytes and line, and
nothing to report; the machine finds the same tokens and makes no report, with lines counted in 32
bits. -/
theorem masking_keeps_tokens (source : String) (hfeeds : lineFeeds source.toList < 2 ^ 32 - 1) :
    ∃ masked : String,
      (∀ text : String, text.toUTF8.data.toList = (Scan.ofString source).maskedBytes ↔
        text = masked) ∧
      (Scan.ofString masked).tokens = (Scan.ofString source).tokens ∧
      (Scan.ofString masked).reports = [] ∧
      (Scanner.run masked {}).tokens = (Scanner.run source {}).tokens ∧
      (Scanner.run masked {}).errors = 0 ∧
      (Scanner.run masked {}).sink.diagnostics = #[] ∧
      ∀ s, Scanner.Head masked {} s → s.cursor.line < 2 ^ 32 := by
  have hlist : (String.ofList (maskedText {} source.toList)).toList = maskedText {} source.toList :=
    String.toList_ofList
  have hbytes : (String.ofList (maskedText {} source.toList)).toUTF8.data.toList =
      (Scan.ofString source).maskedBytes := by
    rw [toUTF8_ofList, maskedText, List.flatMap_assoc]
    exact congrArg ((Scan.ofString source).pieces.flatMap ·) (funext Piece.masked_bytes)
  obtain ⟨htokens, hreports⟩ := records_maskedText {} source.toList
  rw [tokens_filter_isToken, ← hlist] at htokens
  rw [reports_filter_isToken, ← hlist] at hreports
  have hmasked : (Scan.ofString (String.ofList (maskedText {} source.toList))).reports = [] :=
    hreports
  obtain ⟨hrun, -, hsink, herrors, -⟩ :=
    Scanner.run_eq (String.ofList (maskedText {} source.toList)) {}
  refine ⟨String.ofList (maskedText {} source.toList), ?_, htokens, hmasked, ?_, ?_, ?_, ?_⟩
  · intro text
    constructor
    · intro h
      rw [← hbytes] at h
      exact String.toByteArray_inj.mp (ByteArray.ext (Array.toList_inj.mp h))
    · rintro rfl
      exact hbytes
  · rw [← Array.toList_inj, hrun, (Scanner.run_eq source {}).1]
    exact htokens
  · rw [herrors, hmasked]
    rfl
  · rw [← Array.toList_inj, hsink, Collector.absorb_diagnostics, Scan.diagnostics, hmasked]
    rfl
  · intro s hs
    have hlines := congrArg Position.line (maskedText_after {} source.toList)
    rw [Position.after_line, Position.after_line] at hlines
    refine hs.line_lt ?_
    rw [hlist, Nat.add_left_cancel hlines]
    exact hfeeds

/-- Two bytes of a character that opens no piece keep two operators apart, and a point that spoils a
fraction opens the next one. -/
theorem masking_keeps_tokens_second_point :
    (Scan.ofString "=  =\n   .3").tokens = (Scan.ofString "=é=\n1.2.3").tokens ∧
      (Scan.ofString "=  =\n   .3").reports = [] := by
  obtain ⟨masked, hbytes, htokens, hreports, -⟩ :=
    masking_keeps_tokens "=é=\n1.2.3" (by decide)
  have hmasked : "=  =\n   .3" = masked := (hbytes _).mp (by decide +kernel)
  rw [hmasked]
  exact ⟨htokens, hreports⟩

end CpScan
