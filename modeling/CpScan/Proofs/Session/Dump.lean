/-
# The token dump loses nothing

A session writes each token as a line, `KIND lexeme literal`, with ` @start..stop` behind it if
spans are shown.  Nothing in the line is quoted: a string may have spaces in it, or what looks like
a literal or a span, and it is written twice.  Still the lines can be read back
(`dump_loses_nothing`).

* No token and no message has a line feed in it, so the lines are where the line feeds are
  (`lines_injective`).
* The range is behind the last `@`, and the name of the kind is before the first space.
* A string between its quotes is written behind the lexeme again, so how long the lexeme is can be
  told from how long both are.  Any other lexeme has no space in it and ends at the first one
  (`Grammar.Rule.token_shape`).
* The lexeme decides all else, because a token needs nothing behind it (`rule_of_mem_tokens`).

A span is shown as the range of its bytes.  The line that it is tagged with is not shown, and
cannot be told: a line feed before a token looks like a space there (`dump_does_not_tell_lines`).
-/
import CpScan.Proofs.Scan.Masking
import CpScan.Proofs.Session.Modes
import Mathlib.Data.List.Forall2

namespace CpScan

/-! ## 1. Texts as bytes -/

theorem textBytes_eq (text : String) :
    textBytes text = text.toList.flatMap String.utf8EncodeChar := by
  rw [← toUTF8_ofList, String.ofList_toList]
  rfl

/-- Bytes are the bytes of one text. -/
theorem flatMap_utf8EncodeChar_injective {cs ds : List Char}
    (h : cs.flatMap String.utf8EncodeChar = ds.flatMap String.utf8EncodeChar) : cs = ds := by
  rw [← toUTF8_ofList, ← toUTF8_ofList] at h
  have hbytes : (String.ofList cs).toByteArray = (String.ofList ds).toByteArray :=
    ByteArray.ext (Array.toList_inj.mp h)
  have htext := congrArg String.toList (String.toByteArray_inj.mp hbytes)
  rwa [String.toList_ofList, String.toList_ofList] at htext

/-- The bytes of line feeds are those of the line feeds of the text. -/
theorem count_lineFeed_flatMap_utf8EncodeChar (cs : List Char) :
    (cs.flatMap String.utf8EncodeChar).count 0x0A = lineFeeds cs := by
  induction cs with
  | nil => rfl
  | cons c cs ih =>
    rw [List.flatMap_cons]
    exact count_lineFeed_append c ih

/-! ## 2. Lines -/

/-- What stands before a mark that it does not contain can be told, and so can what is behind. -/
theorem append_mark_inj {α : Type} {x : α} {a a' s s' : List α} (h : x ∉ a) (h' : x ∉ a')
    (heq : a ++ x :: s = a' ++ x :: s') : a = a' ∧ s = s' := by
  rcases List.append_eq_append_iff.mp heq with ⟨v, rfl, hv⟩ | ⟨v, rfl, hv⟩
  · cases v with
    | nil => exact ⟨(List.append_nil a).symm, (List.cons.inj hv).2⟩
    | cons y v =>
      obtain ⟨rfl, -⟩ := List.cons.inj hv
      exact absurd (List.mem_append_right _ List.mem_cons_self) h'
  · cases v with
    | nil => exact ⟨List.append_nil a', (List.cons.inj hv).2.symm⟩
    | cons y v =>
      obtain ⟨rfl, -⟩ := List.cons.inj hv
      exact absurd (List.mem_append_right _ List.mem_cons_self) h

/-- The same from behind: the mark is the last one there is. -/
theorem append_mark_inj_right {α : Type} {x : α} {a a' s s' : List α} (h : x ∉ s) (h' : x ∉ s')
    (heq : a ++ x :: s = a' ++ x :: s') : a = a' ∧ s = s' := by
  have hreverse := congrArg List.reverse heq
  rw [List.reverse_append, List.reverse_append, List.reverse_cons, List.reverse_cons,
    List.append_assoc, List.append_assoc] at hreverse
  obtain ⟨hs, ha⟩ := append_mark_inj (List.mem_reverse.not.mpr h) (List.mem_reverse.not.mpr h')
    hreverse
  exact ⟨List.reverse_inj.mp ha, List.reverse_inj.mp hs⟩

/-- Texts as lines, each with its line feed. -/
def linesText (ls : List (List Char)) : List Char := ls.flatMap (· ++ ['\n'])

theorem linesText_cons (l : List Char) (ls : List (List Char)) :
    linesText (l :: ls) = l ++ '\n' :: linesText ls := by
  simp [linesText]

/-- **Lines can be told apart** if no line feed is in them. -/
theorem lines_injective {ls ls' : List (List Char)} (h : ∀ l ∈ ls, '\n' ∉ l)
    (h' : ∀ l ∈ ls', '\n' ∉ l) (heq : linesText ls = linesText ls') : ls = ls' := by
  induction ls generalizing ls' with
  | nil =>
    cases ls' with
    | nil => rfl
    | cons l' ls' => simp [linesText] at heq
  | cons l ls ih =>
    cases ls' with
    | nil => simp [linesText] at heq
    | cons l' ls' =>
      rw [linesText_cons, linesText_cons] at heq
      obtain ⟨rfl, hrest⟩ := append_mark_inj (h _ List.mem_cons_self) (h' _ List.mem_cons_self) heq
      rw [ih (fun x hx => h x (List.mem_cons_of_mem _ hx))
        (fun x hx => h' x (List.mem_cons_of_mem _ hx)) hrest]

/-- There are as many line feeds as lines. -/
theorem lineFeeds_linesText {ls : List (List Char)} (h : ∀ l ∈ ls, '\n' ∉ l) :
    lineFeeds (linesText ls) = ls.length := by
  induction ls with
  | nil => rfl
  | cons l ls ih =>
    have hzero : l.count '\n' = 0 := List.count_eq_zero.mpr (h l List.mem_cons_self)
    have hrest := ih fun x hx => h x (List.mem_cons_of_mem _ hx)
    rw [lineFeeds] at hrest ⊢
    rw [linesText_cons, List.count_append, List.count_cons_self, hzero, hrest, List.length_cons,
      Nat.zero_add]

/-- Texts that are written line by line. -/
theorem flatMap_textBytes (texts : List String) :
    (texts.flatMap fun text => textBytes (text ++ "\n")) =
      (linesText (texts.map String.toList)).flatMap String.utf8EncodeChar := by
  induction texts with
  | nil => rfl
  | cons text texts ih =>
    rw [List.flatMap_cons, ih, textBytes_eq, List.map_cons, linesText_cons]
    simp

/-! ## 3. Nothing that is shown has a line feed -/

/-- The digits of a number are digits. -/
theorem isDigit_of_mem_repr {n : Nat} {c : Char} (h : c ∈ n.repr.toList) : c.isDigit = true := by
  rw [Nat.toList_repr] at h
  exact Nat.isDigit_of_mem_toDigits (by decide) (by decide) h

theorem notMem_repr {n : Nat} {c : Char} (h : c.isDigit = false) : c ∉ n.repr.toList := by
  intro hmem
  rw [isDigit_of_mem_repr hmem] at h
  cases h

theorem lineFeed_notMem_int (n : Int) : '\n' ∉ n.repr.toList := by
  rw [Int.repr_eq_if]
  split
  · exact notMem_repr rfl
  · rw [String.toList_append, List.mem_append]
    rintro (h | h)
    · exact absurd h (by decide)
    · exact notMem_repr rfl h

namespace Layout

theorem lineFeed_notMem_positional {digits : List Char} (h : '\n' ∉ digits) (point : Int) :
    '\n' ∉ positional digits point := by
  have hzeros (n : Nat) : '\n' ∉ zeros n := fun hmem =>
    absurd (List.eq_of_mem_replicate hmem) (by decide)
  unfold positional
  split
  · simp [h, hzeros]
  · dsimp only
    split
    · rw [List.mem_append, List.mem_cons]
      rintro (htake | heq | hdrop)
      · exact h (List.mem_of_mem_take htake)
      · exact absurd heq (by decide)
      · exact h (List.mem_of_mem_drop hdrop)
    · simp [h, hzeros]

theorem lineFeed_notMem_scientific {digits : List Char} (h : '\n' ∉ digits) (point : Int) :
    '\n' ∉ scientific digits point := by
  have hexponent := lineFeed_notMem_int (point - 1)
  unfold scientific
  split
  · simp [hexponent]
  · simp only [List.mem_singleton] at h
    simp [h, hexponent]
  · simp only [List.mem_cons, not_or] at h
    simp [h, hexponent]

theorem lineFeed_notMem_decimal (l : Layout) (d : Nat) (p : Int) : '\n' ∉ l.decimal d p := by
  have hdigits : '\n' ∉ Nat.toDigits 10 d := by
    rw [← Nat.toList_repr]
    exact notMem_repr rfl
  unfold decimal
  dsimp only
  split
  · exact lineFeed_notMem_positional hdigits _
  · exact lineFeed_notMem_scientific hdigits _

end Layout

theorem lineFeed_notMem_double (x : Double) : '\n' ∉ x.render.toList := by
  have hsign : '\n' ∉ (if x.isNegative then "-" else "").toList := by split <;> decide
  unfold Double.render Layout.double
  split
  · decide
  · dsimp only
    split
    · rw [String.toList_append, List.mem_append]
      exact not_or.mpr ⟨hsign, by decide⟩
    · rw [String.toList_append, String.toList_ofList, List.mem_append]
      exact not_or.mpr ⟨hsign, Layout.literal.lineFeed_notMem_decimal _ _⟩

/-- **What a token is made of.**  A string is a text between two quotes and stands for the text; any
other token has no blank in it and stands for no text. -/
theorem Grammar.Rule.token_shape {text taken rest : List Char} {kind : Kind}
    {literal : Option Literal} (h : Grammar.Rule text ⟨taken, .token kind literal, rest⟩) :
    (kind = .string ∧ ∃ q w, taken = q :: (w ++ [q]) ∧
        literal = some (.str (String.ofList w))) ∨
      (kind ≠ .string ∧ (∀ c ∈ taken, c ∉ Grammar.blanks) ∧ ∀ w, literal ≠ some (.str w)) := by
  have hnamed {c : Char} (hc : c ∈ blanks) : c ∈ named := by
    simp only [named, List.mem_append, hc, true_or]
  have hword {c : Char} (hc : WordPart c) : c ∉ blanks :=
    fun hblank => not_named_of_wordPart hc (hnamed hblank)
  have hreserved : ∀ entry ∈ Kind.reserved, entry.2 ≠ .string := by decide
  have hmarks : ∀ entry ∈ marks, entry.2 ≠ .string ∧ entry.1 ∉ blanks := by decide
  have hoperators : ∀ entry ∈ operators, entry.2.short ≠ .string ∧ entry.2.long ≠ .string ∧
      entry.1 ∉ blanks ∧ entry.2.second ∉ blanks := by decide
  cases h with
  | @string q w => exact .inl ⟨rfl, q, w, rfl, rfl⟩
  | integer _ hrun =>
    exact .inr ⟨by decide, fun c hc => hword (.inr (hrun.1 c hc)), by rintro _ ⟨⟩⟩
  | float hwhole _ hrun =>
    refine .inr ⟨by decide, ?_, by rintro _ ⟨⟩⟩
    intro c hc
    rcases List.mem_append.mp hc with hc | hc
    · exact hword (.inr (hwhole c hc))
    rcases List.mem_cons.mp hc with rfl | hc
    · decide
    · exact hword (.inr (hrun.1 c hc))
  | reserved hc hrun hkind =>
    refine .inr ⟨hreserved _ hkind, ?_, by rintro _ ⟨⟩⟩
    intro d hd
    rcases List.mem_cons.mp hd with rfl | hd
    · exact hword (.inl hc)
    · exact hword (hrun.1 d hd)
  | identifier hc hrun =>
    refine .inr ⟨by decide, ?_, by rintro _ ⟨⟩⟩
    intro d hd
    rcases List.mem_cons.mp hd with rfl | hd
    · exact hword (.inl hc)
    · exact hword (hrun.1 d hd)
  | mark hc =>
    obtain ⟨hkind, hblank⟩ := hmarks _ hc
    exact .inr ⟨hkind, fun d hd => List.mem_singleton.mp hd ▸ hblank, by rintro _ ⟨⟩⟩
  | longOperator hc =>
    obtain ⟨-, hkind, hfirst, hsecond⟩ := hoperators _ hc
    refine .inr ⟨hkind, ?_, by rintro _ ⟨⟩⟩
    intro d hd
    rcases List.mem_cons.mp hd with rfl | hd
    · exact hfirst
    · exact List.mem_singleton.mp hd ▸ hsecond
  | shortOperator hc =>
    obtain ⟨hkind, -, hfirst, -⟩ := hoperators _ hc
    exact .inr ⟨hkind, fun d hd => List.mem_singleton.mp hd ▸ hfirst, by rintro _ ⟨⟩⟩
  | slash =>
    refine .inr ⟨by decide, ?_, by rintro _ ⟨⟩⟩
    intro d hd
    rw [List.mem_singleton.mp hd]
    decide
  | point =>
    refine .inr ⟨by decide, ?_, by rintro _ ⟨⟩⟩
    intro d hd
    rw [List.mem_singleton.mp hd]
    decide

/-- A message has no line feed in it, because a line feed is never unexpected. -/
theorem Grammar.Rule.message_no_lineFeed {text taken rest : List Char} {error : LexicalError}
    (h : Grammar.Rule text ⟨taken, .report error, rest⟩) : '\n' ∉ error.message.toList := by
  cases h with
  | openComment => decide +kernel
  | brokenString => decide +kernel
  | openString => decide +kernel
  | hugeInteger => decide +kernel
  | brokenFloat => decide +kernel
  | @stray c _ hc =>
    have hne : '\n' ≠ c := by
      rintro rfl
      exact hc.2.2 (by decide)
    have hopen : '\n' ∉ "unexpected character '".toList := by decide +kernel
    change '\n' ∉ ("unexpected character '" ++ String.singleton c ++ "'").toList
    simp only [String.toList_append, String.toList_singleton, List.mem_append, List.mem_singleton,
      not_or]
    exact ⟨⟨hopen, hne⟩, by decide⟩

/-- What a scan reports is a message without a line feed. -/
theorem lineFeed_notMem_message {source : List Char} {d : Diagnostic}
    (h : d ∈ (Scan.of source).diagnostics) : '\n' ∉ d.message.toList := by
  obtain ⟨r, hr, rfl⟩ := List.mem_map.mp h
  obtain ⟨⟨start, taken, outcome⟩, hp, hreport⟩ := List.mem_filterMap.mp hr
  obtain ⟨rest, hrule⟩ := exists_rule_of_mem hp
  cases outcome with
  | report error =>
    cases hreport
    exact hrule.message_no_lineFeed
  | token kind literal => cases hreport
  | skip => cases hreport

/-! ## 4. A line shows one token -/

/-- A token that is by itself what it is in the source, as every token of a scan is. -/
def Token.Genuine (t : Token) : Prop :=
  Grammar.Rule t.lexeme.toList ⟨t.lexeme.toList, .token t.kind t.literal, []⟩

theorem genuine_of_mem_tokens {source : List Char} {t : Token}
    (h : t ∈ (Scan.of source).tokens) : t.Genuine := rule_of_mem_tokens h

/-- The text of what a token stands for. -/
def Token.value (t : Token) : List Char := ((t.literal.map Literal.render).getD "null").toList

/-- A token as `KIND lexeme literal`, in characters. -/
theorem Token.render_toList (t : Token) :
    t.render.toList = t.kind.name.toList ++ ' ' :: (t.lexeme.toList ++ ' ' :: t.value) := by
  obtain ⟨kind, lexeme, literal, span⟩ := t
  cases literal <;> simp [render, value]

/-- The range behind it. -/
theorem Token.renderWithSpan_toList (t : Token) :
    t.renderWithSpan.toList = (t.render.toList ++ [' ']) ++ '@' :: t.span.render.toList := by
  simp [renderWithSpan]

theorem Span.render_toList (s : Span) :
    s.render.toList = s.start.repr.toList ++ '.' :: '.' :: s.stop.repr.toList := by
  have hdots : "..".toList = ['.', '.'] := rfl
  change (toString s.start ++ ".." ++ toString s.stop).toList = _
  rw [String.toList_append, String.toList_append, hdots, List.append_assoc]
  rfl

theorem Kind.space_notMem_name (kind : Kind) : ' ' ∉ kind.name.toList := by
  cases kind <;> decide +kernel

theorem Kind.name_eq_string_iff {kind : Kind} : kind.name = "STRING" ↔ kind = .string := by
  cases kind <;> decide +kernel

/-- A number can be told from its digits. -/
theorem eq_of_toList_repr {m n : Nat} (h : m.repr.toList = n.repr.toList) : m = n := by
  rw [Nat.toList_repr, Nat.toList_repr] at h
  calc
    m = Nat.ofDigitChars 10 (Nat.toDigits 10 m) 0 := Nat.ofDigitChars_ten_toDigits.symm
    _ = Nat.ofDigitChars 10 (Nat.toDigits 10 n) 0 := by rw [h]
    _ = n := Nat.ofDigitChars_ten_toDigits

/-- The range of a span can be read off. -/
theorem Span.render_injective {s s' : Span} (h : s.render.toList = s'.render.toList) :
    s.start = s'.start ∧ s.stop = s'.stop := by
  rw [Span.render_toList, Span.render_toList] at h
  obtain ⟨hstart, hrest⟩ := append_mark_inj (notMem_repr rfl) (notMem_repr rfl) h
  have hstop := (List.cons.inj hrest).2
  exact ⟨eq_of_toList_repr hstart, eq_of_toList_repr hstop⟩

/-- A range is written with digits and points. -/
theorem Span.notMem_render {c : Char} (hdigit : c.isDigit = false) (hpoint : c ≠ '.') (s : Span) :
    c ∉ s.render.toList := by
  rw [Span.render_toList, List.mem_append, List.mem_cons, List.mem_cons]
  rintro (h | h | h | h)
  · exact notMem_repr hdigit h
  · exact hpoint h
  · exact hpoint h
  · exact notMem_repr hdigit h

namespace Token.Genuine

variable {t u : Token}

/-- **The lexeme decides the rest.** -/
theorem eq_of_lexeme (ht : t.Genuine) (hu : u.Genuine) (h : t.lexeme = u.lexeme) :
    t.kind = u.kind ∧ t.literal = u.literal := by
  rw [Genuine, h] at ht
  have hcut := Grammar.Rule.unique ht hu
  simp only [Cut.mk.injEq, Outcome.token.injEq, true_and, and_true] at hcut
  exact hcut

/-- **The lexeme can be told** from the line.  Between two strings it is a matter of length. -/
theorem lexeme_eq_of_render (ht : t.Genuine) (hu : u.Genuine)
    (h : t.render.toList = u.render.toList) : t.lexeme = u.lexeme := by
  rw [Token.render_toList, Token.render_toList] at h
  obtain ⟨hname, hrest⟩ :=
    append_mark_inj t.kind.space_notMem_name u.kind.space_notMem_name h
  have hkind : t.kind = .string ↔ u.kind = .string := by
    rw [← Kind.name_eq_string_iff, String.toList_injective hname, Kind.name_eq_string_iff]
  rcases ht.token_shape with ⟨hstring, q, w, hlexeme, hvalue⟩ | ⟨hother, hblank, -⟩
  · rcases hu.token_shape with ⟨-, q', w', hlexeme', hvalue'⟩ | ⟨hother, -⟩
    · have htail : t.value = w := by simp [Token.value, hvalue, Literal.render]
      have htail' : u.value = w' := by simp [Token.value, hvalue', Literal.render]
      have hlength := congrArg List.length hrest
      rw [htail, htail', hlexeme, hlexeme'] at hlength
      simp only [List.length_append, List.length_cons, List.length_nil] at hlength
      refine String.toList_injective (List.append_inj hrest ?_).1
      rw [hlexeme, hlexeme']
      simp only [List.length_append, List.length_cons, List.length_nil]
      omega
    · exact absurd (hkind.mp hstring) hother
  · rcases hu.token_shape with ⟨hstring, -⟩ | ⟨-, hblank', -⟩
    · exact absurd (hkind.mpr hstring) hother
    · have hspace : ' ' ∉ t.lexeme.toList := fun hmem => hblank _ hmem (by decide)
      have hspace' : ' ' ∉ u.lexeme.toList := fun hmem => hblank' _ hmem (by decide)
      exact String.toList_injective (append_mark_inj hspace hspace' hrest).1

/-- A token is shown without a line feed. -/
theorem lineFeed_notMem_render (ht : t.Genuine) : '\n' ∉ t.render.toList := by
  have hname : '\n' ∉ t.kind.name.toList := by
    cases t.kind <;> decide +kernel
  have hlexeme : '\n' ∉ t.lexeme.toList := ht.no_lineFeed
  have hvalue : '\n' ∉ t.value := by
    rcases ht.token_shape with ⟨-, q, w, htaken, hliteral⟩ | ⟨-, -, hliteral⟩
    · rw [htaken] at hlexeme
      simp only [List.mem_cons, List.mem_append, not_or] at hlexeme
      simpa [Token.value, hliteral, Literal.render] using hlexeme.2.1
    · unfold Token.value
      cases hl : t.literal with
      | none => decide
      | some literal =>
        cases literal with
        | str w => exact absurd hl (hliteral w)
        | int n => exact lineFeed_notMem_int n
        | float x => exact lineFeed_notMem_double x
  rw [Token.render_toList]
  simp [hname, hlexeme, hvalue]

end Token.Genuine

/-! ## 5. The lines of a session -/

namespace Session

variable (s : Session)

/-- Tokens that are shown alike: they have all in common that a line of the session shows. -/
structure ShownAlike (t u : Token) : Prop where
  kind : t.kind = u.kind
  lexeme : t.lexeme = u.lexeme
  literal : t.literal = u.literal
  range : s.settings.showSpans = true → t.span.start = u.span.start ∧ t.span.stop = u.span.stop

variable {s} in
/-- **A line tells all of a token that it shows.** -/
theorem renderToken_eq_iff {t u : Token} (ht : t.Genuine) (hu : u.Genuine) :
    s.renderToken t = s.renderToken u ↔ s.ShownAlike t u := by
  have hrender (h : t.render.toList = u.render.toList) :
      t.kind = u.kind ∧ t.lexeme = u.lexeme ∧ t.literal = u.literal := by
    have hlexeme := ht.lexeme_eq_of_render hu h
    obtain ⟨hkind, hliteral⟩ := ht.eq_of_lexeme hu hlexeme
    exact ⟨hkind, hlexeme, hliteral⟩
  have hsame (h : s.ShownAlike t u) : t.render = u.render := by
    simp only [Token.render, h.kind, h.lexeme, h.literal]
  unfold renderToken
  cases hspans : s.settings.showSpans with
  | false =>
    constructor
    · intro h
      obtain ⟨hkind, hlexeme, hliteral⟩ := hrender (congrArg String.toList h)
      exact ⟨hkind, hlexeme, hliteral, fun hshow => absurd (hspans.symm.trans hshow) (by decide)⟩
    · exact hsame
  | true =>
    constructor
    · intro h
      have hline : t.renderWithSpan.toList = u.renderWithSpan.toList := congrArg String.toList h
      rw [Token.renderWithSpan_toList, Token.renderWithSpan_toList] at hline
      obtain ⟨hbefore, hrange⟩ :=
        append_mark_inj_right (t.span.notMem_render rfl (by decide))
          (u.span.notMem_render rfl (by decide)) hline
      obtain ⟨hkind, hlexeme, hliteral⟩ := hrender (List.append_cancel_right hbefore)
      exact ⟨hkind, hlexeme, hliteral, fun _ => Span.render_injective hrange⟩
    · intro h
      obtain ⟨hstart, hstop⟩ := h.range hspans
      simp only [if_true, Token.renderWithSpan, Span.render, hsame h, hstart, hstop]

theorem lineFeed_notMem_renderToken {t : Token} (ht : t.Genuine) :
    '\n' ∉ (s.renderToken t).toList := by
  have hrender := ht.lineFeed_notMem_render
  unfold renderToken
  split
  · have hrange : '\n' ∉ t.span.render.toList := t.span.notMem_render rfl (by decide)
    rw [Token.renderWithSpan_toList]
    simp [hrender, hrange]
  · exact hrender

/-- A diagnostic is shown without a line feed if its message has none. -/
theorem lineFeed_notMem_renderDiagnostic {d : Diagnostic} (h : '\n' ∉ d.message.toList) :
    '\n' ∉ (s.renderDiagnostic d).toList := by
  have hbody : '\n' ∉ d.body.toList := by
    have hline : '\n' ∉ (" [line " ++ toString d.span.line ++ "]: ").toList := by
      simp only [String.toList_append, List.mem_append, not_or]
      exact ⟨⟨by decide, notMem_repr rfl⟩, by decide⟩
    change '\n' ∉ (" [line " ++ toString d.span.line ++ "]: " ++ d.message).toList
    rw [String.toList_append, List.mem_append]
    exact not_or.mpr ⟨hline, h⟩
  unfold renderDiagnostic
  split
  · have htitle : '\n' ∉ "\x1b[1;31mError\x1b[0m".toList := by decide +kernel
    change '\n' ∉ ("\x1b[1;31mError\x1b[0m" ++ d.body).toList
    rw [String.toList_append, List.mem_append]
    exact not_or.mpr ⟨htitle, hbody⟩
  · rw [Diagnostic.render, String.toList_append, List.mem_append]
    exact not_or.mpr ⟨by decide, hbody⟩

/-- The tokens as lines. -/
theorem tokenText_eq (scan : Scan) :
    s.tokenText scan =
      (linesText (scan.tokens.map fun t => (s.renderToken t).toList)).flatMap
        String.utf8EncodeChar := by
  have hlines := flatMap_textBytes (scan.tokens.map s.renderToken)
  rwa [List.flatMap_map, List.map_map] at hlines

/-- The diagnostics as lines. -/
theorem diagnosticText_eq (scan : Scan) :
    s.diagnosticText scan =
      (linesText (scan.diagnostics.map fun d => (s.renderDiagnostic d).toList)).flatMap
        String.utf8EncodeChar := by
  have hlines := flatMap_textBytes (scan.diagnostics.map s.renderDiagnostic)
  rwa [List.flatMap_map, List.map_map] at hlines

theorem lineFeed_notMem_tokenLines (source : List Char) :
    ∀ l ∈ (Scan.of source).tokens.map fun t => (s.renderToken t).toList, '\n' ∉ l := by
  intro l hl
  obtain ⟨t, ht, rfl⟩ := List.mem_map.mp hl
  exact s.lineFeed_notMem_renderToken (genuine_of_mem_tokens ht)

theorem lineFeed_notMem_diagnosticLines (source : List Char) :
    ∀ l ∈ (Scan.of source).diagnostics.map fun d => (s.renderDiagnostic d).toList, '\n' ∉ l := by
  intro l hl
  obtain ⟨d, hd, rfl⟩ := List.mem_map.mp hl
  exact s.lineFeed_notMem_renderDiagnostic (lineFeed_notMem_message hd)

/-- **The text of tokens tells all that the session shows of each.** -/
theorem tokenText_eq_iff (a b : List Char) :
    s.tokenText (Scan.of a) = s.tokenText (Scan.of b) ↔
      List.Forall₂ s.ShownAlike (Scan.of a).tokens (Scan.of b).tokens := by
  have hlines : s.tokenText (Scan.of a) = s.tokenText (Scan.of b) ↔
      (Scan.of a).tokens.map (fun t => (s.renderToken t).toList) =
        (Scan.of b).tokens.map (fun t => (s.renderToken t).toList) := by
    rw [tokenText_eq, tokenText_eq]
    constructor
    · intro h
      exact lines_injective (s.lineFeed_notMem_tokenLines a) (s.lineFeed_notMem_tokenLines b)
        (flatMap_utf8EncodeChar_injective h)
    · intro h
      rw [h]
  rw [hlines, ← List.forall₂_eq_eq_eq, List.forall₂_map_left_iff, List.forall₂_map_right_iff,
    List.forall₂_iff_zip, List.forall₂_iff_zip]
  refine and_congr_right fun _ => forall₂_congr fun t u => imp_congr_right fun hmem => ?_
  obtain ⟨ht, hu⟩ := List.of_mem_zip hmem
  rw [String.toList_inj]
  exact renderToken_eq_iff (genuine_of_mem_tokens ht) (genuine_of_mem_tokens hu)

/-- What a session writes for a source, where there is room for everything. -/
theorem run_texts (source : List Char) (log : Array Event) :
    let after := ((s.run source).execute ⟨{}, {}, false, log⟩).1
    after.out.content = s.tokenText (Scan.of source) ∧
      after.err.content = s.diagnosticText (Scan.of source) := by
  obtain ⟨hout, herr, -⟩ := (s.run source).execute_unlimited log
  obtain ⟨diagnostics, tokens, hshow, ho, he, ho', he'⟩ := s.showScan_split (Scan.of source)
  have hactions : (s.run source).actions = diagnostics ++ tokens := hshow
  rw [hactions, outOf_append, ho, ho', List.nil_append] at hout
  rw [hactions, errOf_append, he, he', List.append_nil] at herr
  exact ⟨hout, herr⟩

end Session

/-- **The dump loses nothing.**  On channels with room for everything, a session writes one line
feed for each token of a source to the output and one for each report to the errors; no line has
one of its own.  For two sources it writes the same output exactly if their scans have as many
tokens, which are pairwise of the same kind, lexeme and literal, and of the same range if spans are
shown. -/
theorem dump_loses_nothing (s : Session) :
    (∀ source log,
      let after := ((s.run source).execute ⟨{}, {}, false, log⟩).1
      after.out.content.count 0x0A = (Scan.of source).tokens.length ∧
        after.err.content.count 0x0A = (Scan.of source).reports.length ∧
        (∀ t ∈ (Scan.of source).tokens, '\n' ∉ (s.renderToken t).toList) ∧
        ∀ d ∈ (Scan.of source).diagnostics, '\n' ∉ (s.renderDiagnostic d).toList) ∧
    ∀ a b log log',
      let afterA := ((s.run a).execute ⟨{}, {}, false, log⟩).1
      let afterB := ((s.run b).execute ⟨{}, {}, false, log'⟩).1
      afterA.out.content = afterB.out.content ↔
        List.Forall₂ s.ShownAlike (Scan.of a).tokens (Scan.of b).tokens := by
  constructor
  · intro source log after
    obtain ⟨hout, herr⟩ := s.run_texts source log
    have hreports : (Scan.of source).diagnostics.length = (Scan.of source).reports.length :=
      List.length_map _
    refine ⟨?_, ?_, fun t ht => ?_, fun d hd => ?_⟩
    · rw [hout, Session.tokenText_eq, count_lineFeed_flatMap_utf8EncodeChar,
        lineFeeds_linesText (s.lineFeed_notMem_tokenLines source), List.length_map]
    · rw [herr, Session.diagnosticText_eq, count_lineFeed_flatMap_utf8EncodeChar,
        lineFeeds_linesText (s.lineFeed_notMem_diagnosticLines source), List.length_map, hreports]
    · exact s.lineFeed_notMem_renderToken (genuine_of_mem_tokens ht)
    · exact s.lineFeed_notMem_renderDiagnostic (lineFeed_notMem_message hd)
  · intro a b log log' afterA afterB
    rw [(s.run_texts a log).1, (s.run_texts b log').1]
    exact s.tokenText_eq_iff a b

/-- The range of a span is shown but not its line, so that spans need not be equal: the output is
the same where a line feed stands before the token and where a space does, but not the line. -/
theorem dump_does_not_tell_lines :
    let s : Session := ⟨{ showSpans := true }, false⟩
    let a := ['\n', 'a']
    let b := [' ', 'a']
    ((s.run a).execute ⟨{}, {}, false, #[]⟩).1.out.content =
        ((s.run b).execute ⟨{}, {}, false, #[]⟩).1.out.content ∧
      ¬ List.Forall₂
        (fun t u => t.kind = u.kind ∧ t.lexeme = u.lexeme ∧ t.literal = u.literal ∧
          (s.settings.showSpans = true → t.span = u.span))
        (Scan.of a).tokens (Scan.of b).tokens := by
  intro s a b
  constructor
  · rw [(s.run_texts a #[]).1, (s.run_texts b #[]).1]
    decide +kernel
  · have ha : (Scan.of a).tokens = [⟨.identifier, "a", none, ⟨1, 2, 2⟩⟩] := by decide +kernel
    have hb : (Scan.of b).tokens = [⟨.identifier, "a", none, ⟨1, 2, 1⟩⟩] := by decide +kernel
    rw [ha, hb, List.forall₂_cons]
    rintro ⟨⟨-, -, -, hspan⟩, -⟩
    exact absurd (hspan rfl) (by decide)

end CpScan
