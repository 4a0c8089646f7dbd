/-
# What stands behind a piece

The grammar says what a piece is together with the text behind it, but few rules care about that
text.  This module says how much of it matters, once for all rules, so that whoever compares the
scans of two texts has to look at two characters only.

* A run is longest exactly if the next character does not go on with it (`longest_iff_stops`), and
  the first end of a comment is settled before it comes (`firstEnd_iff`).
* `Quiet` characters are the ones that go on with no token.  A text `Fades` to another if the first
  two characters of the second are quiet, or are those of the first.
* **A piece stays what it is when the text behind it fades** (`Rule.behind`), unless it `Leans` on
  that text: a line comment, a comment or string without an end, and a fraction that another point
  spoils go up to something that has to be there.  If the next character stays too, every piece
  stays what it is (`Rule.behind_of_head`).

So no rule looks more than two characters ahead, and a token never needs anything behind it: its
text alone is the same token (`rule_of_mem_tokens`).
-/
import CpScan.Proofs.Scan.Coverage
import CpScan.Proofs.Scan.Grammar

namespace CpScan

namespace Grammar

/-! ## 1. Runs and ends, apart from what follows them -/

/-- **A run is longest exactly if the text behind it does not go on with it.** -/
theorem longest_iff_stops {P : Char → Prop} {run rest : List Char} :
    Longest P run rest ↔ (∀ c ∈ run, P c) ∧ ∀ c more, rest = c :: more → ¬ P c := by
  constructor
  · rintro ⟨hrun, hmax⟩
    refine ⟨hrun, ?_⟩
    rintro c more rfl hc
    have hlen := hmax (run ++ [c]) (by simp) (by
      intro d hd
      rcases List.mem_append.mp hd with hd | hd
      · exact hrun d hd
      · rw [List.mem_singleton.mp hd]
        exact hc)
    simp at hlen
  · rintro ⟨hrun, hstop⟩
    refine ⟨hrun, ?_⟩
    rintro w ⟨u, hu⟩ hw
    rcases List.append_eq_append_iff.mp hu with ⟨v, rfl, -⟩ | ⟨v, rfl, hrest⟩
    · simp
    · cases v with
      | nil => simp
      | cons c v =>
        -- the run would go on with the first character behind it
        exact absurd (hw c (by simp)) (hstop c _ hrest)

/-- **An end is the first one exactly if there is none before it.**  An end cannot overlap the one
behind the text, because it would have to open with the slash that closes it. -/
theorem firstEnd_iff {body rest : List Char} : FirstEnd body rest ↔ NoEnd body := by
  constructor
  · rintro hfirst b r rfl
    have hle := hfirst b (r ++ '*' :: '/' :: rest) (by simp)
    simp at hle
  · intro hnone b r heq
    rcases List.append_eq_append_iff.mp heq with ⟨v, rfl, hv⟩ | ⟨v, rfl, -⟩
    · match v with
      | [] => simp
      | [_] => simp at hv
      | c :: d :: v =>
        obtain ⟨rfl, rfl⟩ : '*' = c ∧ '/' = d := by
          simp only [List.cons_append, List.cons.injEq] at hv
          exact ⟨hv.1, hv.2.1⟩
        exact absurd rfl (hnone b v)
    · simp

/-! ## 2. Characters that go on with nothing -/

/-- A character that no token goes on with: it is in no word and no number, and is no second
character of an operator or of the beginning of a comment. -/
def Quiet (c : Char) : Prop := ¬ WordPart c ∧ c ≠ '.' ∧ c ≠ '*' ∧ c ≠ '='

theorem not_quiet_of_wordPart {c : Char} (h : WordPart c) : ¬ Quiet c := fun hq => hq.1 h

theorem not_quiet_of_digit {c : Char} (h : Digit c) : ¬ Quiet c := fun hq => hq.1 (.inr h)

theorem not_quiet_point : ¬ Quiet '.' := fun hq => hq.2.1 rfl

theorem not_quiet_star : ¬ Quiet '*' := fun hq => hq.2.2.1 rfl

/-- What makes an operator longer is not quiet. -/
theorem not_quiet_second {c : Char} {p : Pair} (h : (c, p) ∈ operators) : ¬ Quiet p.second := by
  have hsecond : ∀ entry ∈ operators, entry.2.second = '*' ∨ entry.2.second = '=' := by decide
  rintro ⟨-, -, hstar, hequal⟩
  rcases hsecond _ h with heq | heq
  · exact hstar heq
  · exact hequal heq

/-- Blanks and line feeds are quiet. -/
theorem quiet_of_mem_blanks {c : Char} (h : c ∈ blanks) : Quiet c := by
  have hnamed : c ∈ named := by simp only [named, List.mem_append, h, true_or]
  refine ⟨fun hw => not_named_of_wordPart hw hnamed, ?_, ?_, ?_⟩
  · rintro rfl
    exact absurd h (by decide)
  · rintro rfl
    exact absurd h (by decide)
  · rintro rfl
    exact absurd h (by decide)

/-! ## 3. Texts that fade -/

/-- As far as a piece before it can tell, the text `r'` has nothing that `r` has not: its first
character is quiet or the first of `r`, and of its first two one is quiet or both are those
of `r`. -/
structure Fades (r r' : List Char) : Prop where
  first : ∀ c more, r' = c :: more → Quiet c ∨ ∃ more₀, r = c :: more₀
  second : ∀ c d more, r' = c :: d :: more → Quiet c ∨ Quiet d ∨ ∃ more₀, r = c :: d :: more₀

namespace Fades

variable {r r' : List Char}

/-- Two characters in common are enough. -/
theorem of_two (c d : Char) (u v : List Char) : Fades (c :: d :: u) (c :: d :: v) where
  first := by
    rintro _ _ ⟨⟩
    exact .inr ⟨_, rfl⟩
  second := by
    rintro _ _ _ ⟨⟩
    exact .inr (.inr ⟨_, rfl⟩)

/-- What opens with a quiet character takes the place of anything. -/
theorem of_quiet {c : Char} (hc : Quiet c) (r more : List Char) : Fades r (c :: more) where
  first := by
    rintro _ _ ⟨⟩
    exact .inl hc
  second := by
    rintro _ _ _ ⟨⟩
    exact .inl hc

/-- A text fades when it goes on with something that opens with a quiet character. -/
theorem append (r : List Char) {w : List Char} (hw : ∀ c more, w = c :: more → Quiet c) :
    Fades r (r ++ w) := by
  match r with
  | [] =>
    refine ⟨fun c more h => .inl (hw c more h), fun c d more h => .inl (hw c _ h)⟩
  | [c] =>
    refine ⟨?_, ?_⟩
    · rintro _ _ ⟨⟩
      exact .inr ⟨_, rfl⟩
    · intro _ d more h
      obtain ⟨-, hmore⟩ := List.cons.inj h
      exact .inr (.inl (hw d more hmore))
  | c :: d :: u => exact of_two c d u (u ++ w)

/-- If the text does not open with a loud character, neither does what it fades to. -/
theorem not_head (hf : Fades r r') {c : Char} (hc : ¬ Quiet c) (h : ∀ more, r ≠ c :: more) :
    ∀ more, r' ≠ c :: more := by
  intro more heq
  rcases hf.first c more heq with hq | ⟨more₀, hr⟩
  · exact hc hq
  · exact h more₀ hr

/-- The same for two loud characters. -/
theorem not_head_two (hf : Fades r r') {c d : Char} (hc : ¬ Quiet c) (hd : ¬ Quiet d)
    (h : ∀ more, r ≠ c :: d :: more) : ∀ more, r' ≠ c :: d :: more := by
  intro more heq
  rcases hf.second c d more heq with hq | hq | ⟨more₀, hr⟩
  · exact hc hq
  · exact hd hq
  · exact h more₀ hr

/-- A longest run stays one if no quiet character goes on with it. -/
theorem longest (hf : Fades r r') {P : Char → Prop} {run : List Char}
    (hP : ∀ c, P c → ¬ Quiet c) (hrun : Longest P run r) : Longest P run r' := by
  obtain ⟨hall, hstop⟩ := longest_iff_stops.mp hrun
  refine longest_iff_stops.mpr ⟨hall, ?_⟩
  intro c more heq hc
  rcases hf.first c more heq with hq | ⟨more₀, hr⟩
  · exact hP c hc hq
  · exact hstop c more₀ hr hc

end Fades

/-! ## 4. Pieces that lean on what is behind them -/

/-- A piece that goes up to something: it is what it is because of what stands behind it. -/
inductive Leans : Cut → Prop
  /-- A line comment goes up to the end of the line. -/
  | lineComment {run rest : List Char} (hrun : Longest (· ≠ '\n') run rest) :
      Leans ⟨'#' :: run, .skip, rest⟩
  /-- A comment without an end goes up to the end of the text. -/
  | openComment {body : List Char} (hend : NoEnd body) :
      Leans ⟨'/' :: '*' :: body, .report .unfinishedComment, []⟩
  /-- So does a string without an end. -/
  | openString {q : Char} {w : List Char} (hq : q = '"' ∨ q = '\'')
      (hrun : Longest (fun c => c ≠ q ∧ c ≠ '\n') w []) :
      Leans ⟨q :: w, .report .unfinishedString, []⟩
  /-- A fraction is spoilt by the point behind it. -/
  | brokenFloat {whole fraction rest : List Char} (hwhole : ∀ d ∈ whole, Digit d)
      (hne : fraction ≠ []) (hrun : Longest Digit fraction ('.' :: rest)) :
      Leans ⟨whole ++ '.' :: fraction, .report .malformedFloat, '.' :: rest⟩

namespace Leans

/-- No token leans on anything. -/
theorem not_token {taken rest : List Char} {kind : Kind} {literal : Option Literal} :
    ¬ Leans ⟨taken, .token kind literal, rest⟩ := by
  intro h
  cases h

/-- A piece that leans stays what it is if the next character stays. -/
theorem rule_of_head {taken rest rest' : List Char} {outcome : Outcome}
    (h : Leans ⟨taken, outcome, rest⟩) (hhead : rest'.head? = rest.head?) :
    Rule (taken ++ rest') ⟨taken, outcome, rest'⟩ := by
  have hsame : ∀ c more, rest' = c :: more → ∃ more₀, rest = c :: more₀ := by
    rintro c more rfl
    exact List.head?_eq_some_iff.mp hhead.symm
  cases h with
  | lineComment hrun =>
    obtain ⟨hall, hstop⟩ := longest_iff_stops.mp hrun
    refine .lineComment (longest_iff_stops.mpr ⟨hall, ?_⟩)
    intro c more heq
    obtain ⟨more₀, hrest⟩ := hsame c more heq
    exact hstop c more₀ hrest
  | openComment hend =>
    have hnil : rest' = [] := List.head?_eq_none_iff.mp hhead
    rw [hnil, List.append_nil]
    exact .openComment hend
  | openString hq hrun =>
    have hnil : rest' = [] := List.head?_eq_none_iff.mp hhead
    rw [hnil, List.append_nil]
    exact .openString hq hrun
  | @brokenFloat whole fraction rest hwhole hne hrun =>
    obtain ⟨more, rfl⟩ := List.head?_eq_some_iff.mp hhead
    obtain ⟨hall, hstop⟩ := longest_iff_stops.mp hrun
    have hrun' : Longest Digit fraction ('.' :: more) := by
      refine longest_iff_stops.mpr ⟨hall, ?_⟩
      rintro c _ ⟨⟩
      exact hstop '.' _ rfl
    rw [List.append_assoc]
    exact .brokenFloat hwhole hne hrun'

end Leans

/-! ## 5. Pieces and fading texts -/

section Behind

variable {text taken rest rest' : List Char} {outcome : Outcome}

/-- No piece is empty. -/
theorem Rule.taken_ne_nil (h : Rule text ⟨taken, outcome, rest⟩) : taken ≠ [] := by
  obtain ⟨c, cs, -, hcut⟩ := cut_of_rule h
  obtain ⟨more, htaken, -⟩ := cut_splits c cs
  rw [hcut] at htaken
  change taken = c :: more at htaken
  rw [htaken]
  exact List.cons_ne_nil c more

/-- **A piece stays what it is when the text behind it fades, unless it leans on it.** -/
theorem Rule.behind (h : Rule text ⟨taken, outcome, rest⟩) (hf : Fades rest rest') :
    Rule (taken ++ rest') ⟨taken, outcome, rest'⟩ ∨ Leans ⟨taken, outcome, rest⟩ := by
  cases h with
  | blank hc => exact .inl (.blank hc)
  | lineComment hrun => exact .inr (.lineComment hrun)
  | @blockComment body rest hend =>
    have hrule := Rule.blockComment (firstEnd_iff.mpr (firstEnd_iff.mp hend) : FirstEnd body rest')
    exact .inl (by simpa using hrule)
  | openComment hend => exact .inr (.openComment hend)
  | @string q w rest hq hrun =>
    have hrun' : Longest (fun c => c ≠ q ∧ c ≠ '\n') w (q :: rest') := by
      refine longest_iff_stops.mpr ⟨hrun.1, ?_⟩
      rintro _ _ ⟨⟩ ⟨hne, -⟩
      exact hne rfl
    exact .inl (by simpa using Rule.string hq hrun')
  | @brokenString q w rest hq hrun =>
    have hrun' : Longest (fun c => c ≠ q ∧ c ≠ '\n') w ('\n' :: rest') := by
      refine longest_iff_stops.mpr ⟨hrun.1, ?_⟩
      rintro _ _ ⟨⟩ ⟨-, hne⟩
      exact hne rfl
    exact .inl (by simpa using Rule.brokenString hq hrun')
  | openString hq hrun => exact .inr (.openString hq hrun)
  | integer hne hrun hend hvalue =>
    refine .inl (.integer hne (hf.longest (fun _ => not_quiet_of_digit) hrun) ?_ hvalue)
    intro d more hd
    exact hf.not_head_two not_quiet_point (not_quiet_of_digit hd) (fun m => hend d m hd) more
  | hugeInteger hne hrun hend hvalue =>
    refine .inl (.hugeInteger hne (hf.longest (fun _ => not_quiet_of_digit) hrun) ?_ hvalue)
    intro d more hd
    exact hf.not_head_two not_quiet_point (not_quiet_of_digit hd) (fun m => hend d m hd) more
  | float hwhole hne hrun hend =>
    have hrun' := hf.longest (fun _ => not_quiet_of_digit) hrun
    have hrule := Rule.float hwhole hne hrun' (hf.not_head not_quiet_point hend)
    exact .inl (by simpa using hrule)
  | brokenFloat hwhole hne hrun => exact .inr (.brokenFloat hwhole hne hrun)
  | reserved hc hrun hword =>
    exact .inl (.reserved hc (hf.longest (fun _ => not_quiet_of_wordPart) hrun) hword)
  | identifier hc hrun hword =>
    exact .inl (.identifier hc (hf.longest (fun _ => not_quiet_of_wordPart) hrun) hword)
  | mark hc => exact .inl (.mark hc)
  | longOperator hc => exact .inl (.longOperator hc)
  | shortOperator hc hend => exact .inl (.shortOperator hc (hf.not_head (not_quiet_second hc) hend))
  | slash hend => exact .inl (.slash (hf.not_head not_quiet_star hend))
  | point hend =>
    refine .inl (.point ?_)
    intro d more hd
    exact hf.not_head (not_quiet_of_digit hd) (fun m => hend d m hd) more
  | stray hc => exact .inl (.stray hc)

/-- A token stays what it is when the text behind it fades. -/
theorem Rule.behind_token {kind : Kind} {literal : Option Literal}
    (h : Rule text ⟨taken, .token kind literal, rest⟩) (hf : Fades rest rest') :
    Rule (taken ++ rest') ⟨taken, .token kind literal, rest'⟩ := by
  rcases h.behind hf with hrule | hleans
  · exact hrule
  · exact absurd hleans Leans.not_token

/-- **Two characters decide.**  Every piece stays what it is when the text behind it fades and the
next character stays. -/
theorem Rule.behind_of_head (h : Rule text ⟨taken, outcome, rest⟩) (hf : Fades rest rest')
    (hhead : rest'.head? = rest.head?) : Rule (taken ++ rest') ⟨taken, outcome, rest'⟩ := by
  rcases h.behind hf with hrule | hleans
  · exact hrule
  · exact hleans.rule_of_head hhead

/-- Going on with something that opens with a quiet character changes no piece but the last, and
that one only if it leans on the end of the text. -/
theorem Rule.append (h : Rule text ⟨taken, outcome, rest⟩) {w : List Char}
    (hw : ∀ c more, w = c :: more → Quiet c) :
    Rule (taken ++ (rest ++ w)) ⟨taken, outcome, rest ++ w⟩ ∨
      (rest = [] ∧ Leans ⟨taken, outcome, rest⟩) := by
  have hf := Fades.append rest hw
  cases rest with
  | nil =>
    rcases h.behind hf with hrule | hleans
    · exact .inl hrule
    · exact .inr ⟨rfl, hleans⟩
  | cons c rest => exact .inl (h.behind_of_head hf rfl)

end Behind

end Grammar

/-! ## 6. Going along a text by the grammar -/

/-- Induction along the pieces as the grammar gives them: what holds of the empty text, and of a
text if it holds of what is left behind its first piece, holds of every text. -/
@[elab_as_elim]
theorem rule_induction {motive : List Char → Prop} (nil : motive [])
    (piece : ∀ taken outcome rest, Grammar.Rule (taken ++ rest) ⟨taken, outcome, rest⟩ →
      motive rest → motive (taken ++ rest)) (text : List Char) : motive text := by
  induction text using cut_induction with
  | nil => exact nil
  | cons c cs ih =>
    have hrule : Grammar.Rule (c :: cs) (cut c cs) := (Grammar.rule_iff c cs _).mpr rfl
    have hsplit := taken_append_rest c cs
    rw [← hsplit] at hrule ⊢
    exact piece _ _ _ hrule ih

/-- The pieces of a text are its first piece, as the grammar gives it, and those of the rest. -/
theorem piecesFrom_of_rule {text : List Char} {k : Cut} (h : Grammar.Rule text k)
    (here : Position) :
    piecesFrom here text =
      ⟨here, k.taken, k.outcome⟩ :: piecesFrom (here.after k.taken) k.rest := by
  obtain ⟨c, cs, rfl, rfl⟩ := Grammar.cut_of_rule h
  exact piecesFrom_cons here c cs

/-- Every piece of a text is what the grammar says of its text and some text behind it. -/
theorem exists_rule_of_mem {here : Position} {text : List Char} {p : Piece}
    (h : p ∈ piecesFrom here text) :
    ∃ rest, Grammar.Rule (p.text ++ rest) ⟨p.text, p.outcome, rest⟩ := by
  induction text using rule_induction generalizing here with
  | nil =>
    rw [piecesFrom_nil] at h
    cases h
  | piece taken outcome rest hrule ih =>
    rw [piecesFrom_of_rule hrule] at h
    rcases List.mem_cons.mp h with rfl | h
    · exact ⟨rest, hrule⟩
    · exact ih h

/-- A text has one first piece. -/
theorem Grammar.Rule.unique {text : List Char} {k k' : Cut} (h : Rule text k)
    (h' : Rule text k') : k = k' := by
  obtain ⟨c, cs, rfl, rfl⟩ := cut_of_rule h
  exact (rule_iff c cs k').mp h'

/-- **A token needs nothing behind it**: the text of a token of a scan is, by itself, this token. -/
theorem rule_of_mem_tokens {here : Position} {text : List Char} {t : Token}
    (h : t ∈ (piecesFrom here text).filterMap Piece.token?) :
    Grammar.Rule t.lexeme.toList ⟨t.lexeme.toList, .token t.kind t.literal, []⟩ := by
  obtain ⟨⟨start, taken, outcome⟩, hp, htoken⟩ := List.mem_filterMap.mp h
  obtain ⟨rest, hrule⟩ := exists_rule_of_mem hp
  cases outcome with
  | token kind literal =>
    cases htoken
    have hfades : Grammar.Fades rest [] := ⟨by rintro _ _ ⟨⟩, by rintro _ _ _ ⟨⟩⟩
    have halone := hrule.behind_token hfades
    rw [List.append_nil] at halone
    rw [String.toList_ofList]
    exact halone
  | report error => cases htoken
  | skip => cases htoken

end CpScan
