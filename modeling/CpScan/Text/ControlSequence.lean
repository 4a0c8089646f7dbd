/-
# Control sequences

A terminal takes the escape character and what follows it for an order, not for text: to change a
color, to move, to set a title.  `styled` writes such orders, and `visible` takes them off again,
so that a text shown somewhere else holds nothing but characters to be read.

A reader of a text stands at a `Place`: in plain text, or in one of the kinds of order.

    escape sequence      ESC, some of !"#$%&'()*+,-./ and the space, one other character
    control sequence     ESC [, digits and signs, one letter
    system command       ESC ], anything, BEL
    device control       ESC P, digits and signs, one letter, anything
    other strings        ESC X, ESC ^ or ESC _, anything

The escape character ends any of them, because it opens the next one, and so do U+0018 and U+001A.
In plain text `isShown` tells the characters to be read from other control characters.

* `isShown_of_mem_visible`: what is left holds characters to be read only;
* `visible_eq_self`: a text of such characters is left as it is.
-/

namespace CpScan.Text

/-! ## 1. Styles -/

/-- A text between the code that turns a color or style on and the one that turns it off. -/
def styled (code : Nat) (text : String) : String := s!"\x1b[{code}m" ++ text ++ "\x1b[0m"

/-! ## 2. Where a reader stands -/

/-- Where a reader of a text stands. -/
inductive Place where
  /-- In plain text. -/
  | text
  /-- Behind an escape character. -/
  | escape
  /-- In an escape sequence that one more character ends. -/
  | intermediate
  /-- In a control sequence. -/
  | control
  /-- In a system command. -/
  | command
  /-- At the head of a device control string, before anything. -/
  | device
  /-- At its head, in the numbers. -/
  | deviceNumbers
  /-- At its head, behind the numbers. -/
  | deviceSigns
  /-- In the body of a device control string, or in another string. -/
  | body
deriving DecidableEq, Repr

namespace Place

/-- The place behind an ASCII character. -/
def next (p : Place) (c : Char) : Place :=
  if c = '\x18' ∨ c = '\x1a' then text
  else if c = '\x1b' then escape
  else match p with
    | text => text
    | escape =>
      if c < ' ' ∨ c = '\x7f' then escape
      else if c < '0' then intermediate
      else if c = '[' then control
      else if c = ']' then command
      else if c = 'P' then device
      else if c = 'X' ∨ c = '^' ∨ c = '_' then body
      else text
    | intermediate => if c < '0' ∨ c = '\x7f' then intermediate else text
    | control => if c < '@' ∨ c = '\x7f' then control else text
    | command => if c = '\x07' then text else command
    | device =>
      if c < ' ' ∨ c = '\x7f' then device
      else if c < '0' then deviceSigns
      else if c < '@' then deviceNumbers
      else body
    | deviceNumbers =>
      if c < ' ' ∨ c = '\x7f' then deviceNumbers
      else if c < '0' then deviceSigns
      else if c < '<' then deviceNumbers
      else body
    | deviceSigns => if c < '0' ∨ c = '\x7f' then deviceSigns else body
    | body => body

/-- Whether a tab or line end at this place is still one. -/
def keepsLayout : Place → Bool
  | text | escape | intermediate | control => true
  | _ => false

/-- The place behind a character past ASCII that is passed over.  Where one of its bytes is that
of the string terminator, a string ends. -/
def pass (p : Place) (c : Char) : Place :=
  if p = body ∧ 0x9C ∈ String.utf8EncodeChar c then text else p

end Place

/-! ## 3. What is to be read -/

/-- The tab and the characters that end a line or page. -/
def isLayout (c : Char) : Bool := c = '\t' || c = '\n' || c = '\x0c' || c = '\r'

/-- The characters that are to be read: all but the control characters of ASCII, layout apart. -/
def isShown (c : Char) : Bool := (' ' ≤ c && c ≠ '\x7f') || isLayout c

/-- What becomes of an order that is broken by a tab or line end, which is to be read. -/
inductive Broken where
  /-- The rest is plain text. -/
  | abandoned
  /-- The rest is plain text up to the next control character, where the order goes on. -/
  | resumed
deriving DecidableEq, Repr

/-- What is to be read of a text, from a place on.  If the order at this place is `paused`, plain
text stands before the rest of it. -/
def visibleFrom (b : Broken) : Place → (paused : Bool) → List Char → List Char
  | _, _, [] => []
  | p, paused, c :: cs =>
    if p = .text ∨ paused then
      if isShown c then
        c :: if c.toNat < 0x80 then visibleFrom b p paused cs else visibleFrom b .text false cs
      else visibleFrom b (p.next c) false cs
    else if c.toNat < 0x80 then
      if isLayout c ∧ p.keepsLayout then
        c :: match b with
          | .abandoned => visibleFrom b .text false cs
          | .resumed => visibleFrom b p true cs
      else visibleFrom b (p.next c) false cs
    else visibleFrom b (p.pass c) false cs

/-- What is to be read of a text. -/
def visible (b : Broken) (text : String) : String :=
  String.ofList (visibleFrom b .text false text.toList)

/-! ## 4. Nothing else is left -/

/-- What is left of a text are characters to be read. -/
theorem isShown_of_mem_visibleFrom (b : Broken) :
    ∀ (cs : List Char) (p : Place) (paused : Bool),
      ∀ c ∈ visibleFrom b p paused cs, isShown c
  | [], _, _, c, h => by simp [visibleFrom] at h
  | x :: cs, p, paused, c, h => by
    have ih := isShown_of_mem_visibleFrom b cs
    unfold visibleFrom at h
    split at h
    · split at h
      · split at h
        · rcases List.mem_cons.mp h with rfl | h
          · assumption
          · exact ih _ _ _ h
        · rcases List.mem_cons.mp h with rfl | h
          · assumption
          · exact ih _ _ _ h
      · exact ih _ _ _ h
    · split at h
      · split at h
        · rename_i hl
          rcases List.mem_cons.mp h with rfl | h
          · simp [isShown, hl.1]
          · split at h <;> exact ih _ _ _ h
        · exact ih _ _ _ h
      · exact ih _ _ _ h

/-- What is left of a text are characters to be read. -/
theorem isShown_of_mem_visible {b : Broken} {text : String} {c : Char}
    (h : c ∈ (visible b text).toList) : isShown c :=
  isShown_of_mem_visibleFrom b text.toList .text false c (by simpa [visible] using h)

/-- Characters to be read stay, one by one. -/
theorem visibleFrom_text_eq_self (b : Broken) :
    ∀ (cs : List Char), (∀ c ∈ cs, isShown c) → visibleFrom b .text false cs = cs
  | [], _ => rfl
  | c :: cs, h => by
    have hc : isShown c = true := h c List.mem_cons_self
    have ih := visibleFrom_text_eq_self b cs fun c hc => h c (List.mem_cons_of_mem _ hc)
    simp [visibleFrom, hc, ih]

/-- A text of characters to be read is left as it is. -/
theorem visible_eq_self {b : Broken} {text : String} (h : ∀ c ∈ text.toList, isShown c) :
    visible b text = text := by
  simp [visible, visibleFrom_text_eq_self b text.toList h]

end CpScan.Text
