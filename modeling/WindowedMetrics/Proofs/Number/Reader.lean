/-
Numbers that are read from texts.  What a text writes is said by a grammar:
digits, signs, exponents, a decimal point, and the names of the values that
have no digits.  Every reader accepts exactly the texts of its grammar, and
reads from them what they write.
-/
import WindowedMetrics.Number.Reader
import WindowedMetrics.Proofs.Text.Letters
import Mathlib.Data.List.TakeWhile

namespace WindowedMetrics

/-! ### Digits -/

/-- Digits, at least one, and the number that they write. -/
structure WritesDigits (digits : List Char) (n : Nat) : Prop where
  ne_nil : digits ≠ []
  isDigit : ∀ c ∈ digits, c.isDigit = true
  value : Nat.ofDigitChars 10 digits 0 = n

theorem WritesDigits.isDigit_head {digits : List Char} {n : Nat}
    (h : WritesDigits digits n) : ∃ c ∈ digits.head?, c.isDigit = true := by
  obtain ⟨c, rest, rfl⟩ := List.exists_cons_of_ne_nil h.ne_nil
  exact ⟨c, rfl, h.isDigit c List.mem_cons_self⟩

/-- What a reader of digits goes on to do with their number. -/
theorem read_digits_eq_some_iff {A : Type} (next : Nat → Option A)
    {digits : List Char} {a : A} :
    (if digits.isEmpty || !digits.all Char.isDigit then none
      else next (digitsValue digits)) = some a ↔
      ∃ n, WritesDigits digits n ∧ next n = some a := by
  by_cases hdigits : digits ≠ [] ∧ ∀ c ∈ digits, c.isDigit = true
  · have hread : ¬ (digits.isEmpty || !digits.all Char.isDigit) = true := by
      simpa using hdigits
    rw [if_neg hread]
    constructor
    · intro h
      exact ⟨_, ⟨hdigits.1, hdigits.2, rfl⟩, h⟩
    · rintro ⟨_, ⟨-, -, rfl⟩, h⟩
      exact h
  · have hskip : (digits.isEmpty || !digits.all Char.isDigit) = true := by
      by_contra hread
      exact hdigits (by simpa using hread)
    rw [if_pos hskip]
    constructor
    · nofun
    · rintro ⟨_, ⟨hsome, hall, -⟩, -⟩
      exact absurd ⟨hsome, hall⟩ hdigits

theorem exists_spanDigits (text : List Char) :
    ∃ digits rest, spanDigits text = (digits, rest) ∧
      text = digits ++ rest ∧ (∀ c ∈ digits, c.isDigit = true) ∧
      ∀ c ∈ rest.head?, c.isDigit = false := by
  refine ⟨_, _, rfl, List.takeWhile_append_dropWhile.symm,
    fun _ hc => List.mem_takeWhile_imp hc, fun c hc => ?_⟩
  have hstop := List.head?_dropWhile_not Char.isDigit text
  rw [hc] at hstop
  exact hstop

/-- Digits are followed by what does not begin with a digit. -/
theorem spanDigits_append {digits rest : List Char}
    (hdigits : ∀ c ∈ digits, c.isDigit = true)
    (hrest : ∀ c ∈ rest.head?, c.isDigit = false) :
    spanDigits (digits ++ rest) = (digits, rest) := by
  have hstop : rest.takeWhile Char.isDigit = [] ∧
      rest.dropWhile Char.isDigit = rest := by
    cases rest with
    | nil => exact ⟨rfl, rfl⟩
    | cons c rest =>
        have hc : ¬ c.isDigit = true := by
          rw [hrest c rfl]
          exact Bool.false_ne_true
        exact ⟨List.takeWhile_cons_of_neg hc, List.dropWhile_cons_of_neg hc⟩
  rw [spanDigits, List.takeWhile_append_of_pos hdigits,
    List.dropWhile_append_of_pos hdigits, hstop.1, hstop.2, List.append_nil]

/-! ### Whole numbers -/

/-- A whole number in digits, with a plus sign or without. -/
inductive WritesUnsigned : List Char → Nat → Prop
  | plain {digits : List Char} {n : Nat} (h : WritesDigits digits n) :
      WritesUnsigned digits n
  | plus {digits : List Char} {n : Nat} (h : WritesDigits digits n) :
      WritesUnsigned ('+' :: digits) n

/-- A whole number is read if it is below the bound. -/
theorem readUnsigned?_eq_some_iff {bound n : Nat} {text : String} :
    readUnsigned? bound text = some n ↔
      WritesUnsigned text.toList n ∧ n < bound := by
  have hbelow : ∀ digits : List Char,
      (if digits.isEmpty || !digits.all Char.isDigit then none
        else if digitsValue digits < bound then some (digitsValue digits)
          else none) = some n ↔
        WritesDigits digits n ∧ n < bound := by
    intro digits
    rw [read_digits_eq_some_iff fun k => if k < bound then some k else none]
    simp only [Option.ite_none_right_eq_some, Option.some.injEq]
    constructor
    · rintro ⟨k, hwrites, hfits, rfl⟩
      exact ⟨hwrites, hfits⟩
    · rintro ⟨hwrites, hfits⟩
      exact ⟨n, hwrites, hfits, rfl⟩
  unfold readUnsigned?
  generalize text.toList = chars
  simp only [hbelow]
  split
  · rename_i digits
    constructor
    · rintro ⟨hwrites, hfits⟩
      exact ⟨.plus hwrites, hfits⟩
    · rintro ⟨hwrites | hwrites, hfits⟩
      · exact absurd (hwrites.isDigit '+' List.mem_cons_self) (by decide)
      · exact ⟨hwrites, hfits⟩
  · rename_i hplain
    constructor
    · rintro ⟨hwrites, hfits⟩
      exact ⟨.plain hwrites, hfits⟩
    · rintro ⟨hwrites | hwrites, hfits⟩
      · exact ⟨hwrites, hfits⟩
      · exact absurd rfl (hplain _)

/-- Digits are read as the number that they write, if there are any and it
fits. -/
theorem readUnsigned?_ofList_eq_some_iff {bound amount : Nat}
    {digits : List Char} (hdigits : ∀ c ∈ digits, c.isDigit = true) :
    readUnsigned? bound (String.ofList digits) = some amount ↔
      digits ≠ [] ∧ Nat.ofDigitChars 10 digits 0 = amount ∧
        amount < bound := by
  rw [readUnsigned?_eq_some_iff, String.toList_ofList]
  constructor
  · rintro ⟨hwrites | hwrites, hfits⟩
    · exact ⟨hwrites.ne_nil, hwrites.value, hfits⟩
    · exact absurd (hdigits '+' List.mem_cons_self) (by decide)
  · rintro ⟨hsome, hvalue, hfits⟩
    exact ⟨.plain ⟨hsome, hdigits, hvalue⟩, hfits⟩

/-! ### Decimal numbers -/

/-- Nothing, or the letter `e` in any case, an optional sign and digits. -/
inductive WritesExponent : List Char → Int → Prop
  | nothing : WritesExponent [] 0
  | plain {mark : Char} {digits : List Char} {n : Nat}
      (hmark : mark = 'e' ∨ mark = 'E') (h : WritesDigits digits n) :
      WritesExponent (mark :: digits) n
  | plus {mark : Char} {digits : List Char} {n : Nat}
      (hmark : mark = 'e' ∨ mark = 'E') (h : WritesDigits digits n) :
      WritesExponent (mark :: '+' :: digits) n
  | minus {mark : Char} {digits : List Char} {n : Nat}
      (hmark : mark = 'e' ∨ mark = 'E') (h : WritesDigits digits n) :
      WritesExponent (mark :: '-' :: digits) (-n)

theorem WritesExponent.head {text : List Char} {e : Int}
    (h : WritesExponent text e) :
    ∀ c ∈ text.head?, c.isDigit = false ∧ c ≠ '.' := by
  have hletter : ∀ mark : Char, mark = 'e' ∨ mark = 'E' →
      mark.isDigit = false ∧ mark ≠ '.' := by
    rintro _ (rfl | rfl) <;> decide
  cases h with
  | nothing => nofun
  | plain hmark => rintro _ ⟨⟩; exact hletter _ hmark
  | plus hmark => rintro _ ⟨⟩; exact hletter _ hmark
  | minus hmark => rintro _ ⟨⟩; exact hletter _ hmark

theorem readExponent?_eq_some_iff {text : List Char} {e : Int} :
    readExponent? text = some e ↔ WritesExponent text e := by
  cases text with
  | nil =>
      constructor
      · rintro ⟨⟩
        exact .nothing
      · rintro ⟨⟩
        rfl
  | cons mark rest =>
      have hvalue : ∀ (negative : Bool) (digits : List Char),
          (if digits.isEmpty || !digits.all Char.isDigit then none
            else some (if negative = true then -(digitsValue digits : Int)
              else digitsValue digits)) = some e ↔
            ∃ n, WritesDigits digits n ∧
              (if negative = true then -(n : Int) else n) = e := by
        intro negative digits
        rw [read_digits_eq_some_iff fun n =>
          some (if negative = true then -(n : Int) else n)]
        simp only [Option.some.injEq]
      simp only [readExponent?]
      by_cases hmark : mark = 'e' ∨ mark = 'E'
      · rw [if_pos hmark]
        simp only [hvalue]
        constructor
        · split
          · rintro ⟨n, hwrites, rfl⟩
            exact .minus hmark hwrites
          · rintro ⟨n, hwrites, rfl⟩
            exact .plus hmark hwrites
          · rintro ⟨n, hwrites, rfl⟩
            exact .plain hmark hwrites
        · intro h
          cases h with
          | plain _ hwrites =>
              split
              · exact absurd (hwrites.isDigit '-' List.mem_cons_self)
                  (by decide)
              · exact absurd (hwrites.isDigit '+' List.mem_cons_self)
                  (by decide)
              · exact ⟨_, hwrites, rfl⟩
          | plus _ hwrites => exact ⟨_, hwrites, rfl⟩
          | minus _ hwrites => exact ⟨_, hwrites, rfl⟩
      · rw [if_neg hmark]
        constructor
        · nofun
        · intro h
          cases h <;> exact absurd ‹_› hmark

/-- Digits with an optional point among or around them and an exponent: a
whole number times a power of ten. -/
inductive WritesDecimal : List Char → Nat → Int → Prop
  | whole {whole tail : List Char} {n : Nat} {e : Int}
      (hdigits : WritesDigits whole n) (htail : WritesExponent tail e) :
      WritesDecimal (whole ++ tail) n e
  | point {whole fraction tail : List Char} {n : Nat} {e : Int}
      (hdigits : WritesDigits (whole ++ fraction) n)
      (htail : WritesExponent tail e) :
      WritesDecimal (whole ++ '.' :: (fraction ++ tail)) n
        (e - fraction.length)

theorem WritesDecimal.head {text : List Char} {n : Nat} {e : Int}
    (h : WritesDecimal text n e) :
    ∃ c ∈ text.head?, c.isDigit = true ∨ c = '.' := by
  cases h with
  | whole hdigits htail =>
      obtain ⟨c, hc, hdigit⟩ := hdigits.isDigit_head
      exact ⟨c, by rw [List.head?_append, hc]; rfl, .inl hdigit⟩
  | @point whole fraction tail _ _ hdigits htail =>
      cases whole with
      | nil => exact ⟨'.', rfl, .inr rfl⟩
      | cons c rest =>
          exact ⟨c, rfl, .inl (hdigits.isDigit c List.mem_cons_self)⟩

/-- Digits without a point. -/
theorem readMagnitude?_whole_eq_some_iff {whole tail : List Char} {x : Float}
    (hwhole : ∀ c ∈ whole, c.isDigit = true)
    (htail : ∀ c ∈ tail.head?, c.isDigit = false ∧ c ≠ '.') :
    readMagnitude? (whole ++ tail) = some x ↔ whole ≠ [] ∧
      ∃ e, WritesExponent tail e ∧ floatOfDecimal (digitsValue whole) e = x := by
  have hspan := spanDigits_append hwhole fun c hc => (htail c hc).1
  unfold readMagnitude?
  rw [hspan]
  simp only
  split
  · exact absurd rfl (htail '.' rfl).2
  · simp only [List.isEmpty_nil, Bool.and_true, List.isEmpty_iff,
      Option.ite_none_left_eq_some, Option.map_eq_some_iff,
      readExponent?_eq_some_iff, List.append_nil, List.length_nil,
      Int.natCast_zero, Int.sub_zero]

/-- Digits around a point.  Those behind it count as less of the exponent. -/
theorem readMagnitude?_point_eq_some_iff {whole fraction tail : List Char}
    {x : Float} (hdigits : ∀ c ∈ whole ++ fraction, c.isDigit = true)
    (htail : ∀ c ∈ tail.head?, c.isDigit = false) :
    readMagnitude? (whole ++ '.' :: (fraction ++ tail)) = some x ↔
      whole ++ fraction ≠ [] ∧ ∃ e, WritesExponent tail e ∧
        floatOfDecimal (digitsValue (whole ++ fraction))
          (e - fraction.length) = x := by
  obtain ⟨hwhole, hfraction⟩ := List.forall_mem_append.mp hdigits
  have hspan : spanDigits (whole ++ '.' :: (fraction ++ tail)) =
      (whole, '.' :: (fraction ++ tail)) :=
    spanDigits_append hwhole (by rintro _ ⟨⟩; decide)
  have hafter := spanDigits_append hfraction htail
  unfold readMagnitude?
  rw [hspan]
  simp only [hafter, Option.ite_none_left_eq_some, Option.map_eq_some_iff,
    readExponent?_eq_some_iff, Bool.and_eq_true, List.isEmpty_iff,
    List.append_eq_nil_iff, ne_eq]

/-- A decimal number is read as the float that its digits and its exponent
make. -/
theorem readMagnitude?_eq_some_iff {text : List Char} {x : Float} :
    readMagnitude? text = some x ↔
      ∃ n e, WritesDecimal text n e ∧ floatOfDecimal n e = x := by
  constructor
  · intro h
    obtain ⟨whole, rest, -, rfl, hwhole, hrest⟩ := exists_spanDigits text
    by_cases hpoint : '.' ∈ rest.head?
    · obtain ⟨after, rfl⟩ : ∃ after, rest = '.' :: after :=
        List.head?_eq_some_iff.mp hpoint
      obtain ⟨fraction, tail, -, rfl, hfraction, htail⟩ :=
        exists_spanDigits after
      have hdigits := List.forall_mem_append.mpr ⟨hwhole, hfraction⟩
      obtain ⟨hsome, e, hexponent, rfl⟩ :=
        (readMagnitude?_point_eq_some_iff hdigits htail).mp h
      exact ⟨_, _, .point ⟨hsome, hdigits, rfl⟩ hexponent, rfl⟩
    · have htail : ∀ c ∈ rest.head?, c.isDigit = false ∧ c ≠ '.' :=
        fun c hc => ⟨hrest c hc, fun heq => hpoint (heq ▸ hc)⟩
      obtain ⟨hsome, e, hexponent, rfl⟩ :=
        (readMagnitude?_whole_eq_some_iff hwhole htail).mp h
      exact ⟨_, _, .whole ⟨hsome, hwhole, rfl⟩ hexponent, rfl⟩
  · rintro ⟨n, e, hdecimal, rfl⟩
    cases hdecimal with
    | whole hdigits htail =>
        rw [readMagnitude?_whole_eq_some_iff hdigits.isDigit htail.head,
          ← hdigits.value]
        exact ⟨hdigits.ne_nil, _, htail, rfl⟩
    | point hdigits htail =>
        rw [readMagnitude?_point_eq_some_iff hdigits.isDigit
          fun c hc => (htail.head c hc).1, ← hdigits.value]
        exact ⟨hdigits.ne_nil, _, htail, rfl⟩

/-! ### Names without digits -/

/-- The names of infinity and of what is no number, in any letter case. -/
inductive WritesSpecial : List Char → Float → Prop
  | infinity {name : List Char}
      (h : name.map Char.toLower = "inf".toList ∨
        name.map Char.toLower = "infinity".toList) :
      WritesSpecial name (1.0 / 0.0)
  | notANumber {name : List Char}
      (h : name.map Char.toLower = "nan".toList) :
      WritesSpecial name (0.0 / 0.0)

theorem WritesSpecial.head {name : List Char} {x : Float}
    (h : WritesSpecial name x) : ∃ c ∈ name.head?, c.isAlpha = true := by
  have hletter : ∀ {first : Char} {rest : List Char},
      name.map Char.toLower = first :: rest → first.isAlpha = true →
        ∃ c ∈ name.head?, c.isAlpha = true := by
    intro first rest hname hfirst
    obtain ⟨c, others, rfl, rfl, -⟩ := List.map_eq_cons_iff.mp hname
    exact ⟨c, rfl, isAlpha_of_isAlpha_toLower hfirst⟩
  rcases h with (h | h) | h <;> exact hletter h (by decide)

theorem readSpecial?_eq_some_iff {name : List Char} {x : Float} :
    readSpecial? name = some x ↔ WritesSpecial name x := by
  unfold readSpecial?
  simp only [lowerAscii_ofList_eq_iff]
  constructor
  · intro h
    split at h
    · cases h
      exact .infinity ‹_›
    · split at h
      · cases h
        exact .notANumber ‹_›
      · cases h
  · rintro (h | h)
    · rw [if_pos h]
    · rw [if_neg (by rw [h]; decide), if_pos h]

/-! ### Floats -/

/-- A number without a sign. -/
inductive WritesMagnitude : List Char → Float → Prop
  | decimal {text : List Char} {n : Nat} {e : Int}
      (h : WritesDecimal text n e) :
      WritesMagnitude text (floatOfDecimal n e)
  | special {name : List Char} {x : Float} (h : WritesSpecial name x) :
      WritesMagnitude name x

theorem WritesMagnitude.head {text : List Char} {x : Float}
    (h : WritesMagnitude text x) : ∃ c ∈ text.head?, c ≠ '+' ∧ c ≠ '-' := by
  cases h with
  | decimal h =>
      obtain ⟨c, hc, hdigit⟩ := h.head
      refine ⟨c, hc, ?_⟩
      constructor <;> rintro rfl <;> revert hdigit <;> decide
  | special h =>
      obtain ⟨c, hc, hletter⟩ := h.head
      refine ⟨c, hc, ?_⟩
      constructor <;> rintro rfl <;> revert hletter <;> decide

theorem readMagnitude?_or_readSpecial?_eq_some_iff {text : List Char}
    {x : Float} :
    (readMagnitude? text).or (readSpecial? text) = some x ↔
      WritesMagnitude text x := by
  rw [Option.or_eq_some_iff, readMagnitude?_eq_some_iff,
    readSpecial?_eq_some_iff]
  constructor
  · rintro (⟨n, e, h, rfl⟩ | ⟨-, h⟩)
    · exact .decimal h
    · exact .special h
  · rintro (h | h)
    · exact .inl ⟨_, _, h, rfl⟩
    · refine .inr ⟨?_, h⟩
      rw [Option.eq_none_iff_forall_ne_some]
      intro y hy
      -- a name begins with a letter, a decimal number never does
      obtain ⟨n, e, hdecimal, -⟩ := readMagnitude?_eq_some_iff.mp hy
      obtain ⟨c, hc, hletter⟩ := h.head
      obtain ⟨first, hfirst, hstart⟩ := hdecimal.head
      obtain rfl : c = first := Option.mem_unique hc hfirst
      rcases hstart with hdigit | rfl
      · rw [(of_isAlpha hletter).2] at hdigit
        cases hdigit
      · exact absurd hletter (by decide)

/-- A number with a sign or without. -/
inductive WritesFloat : List Char → Float → Prop
  | plain {text : List Char} {x : Float} (h : WritesMagnitude text x) :
      WritesFloat text x
  | plus {text : List Char} {x : Float} (h : WritesMagnitude text x) :
      WritesFloat ('+' :: text) x
  | minus {text : List Char} {x : Float} (h : WritesMagnitude text x) :
      WritesFloat ('-' :: text) (-x)

/-- A float is read exactly from the texts that write it. -/
theorem readFloat?_eq_some_iff {text : String} {x : Float} :
    readFloat? text = some x ↔ WritesFloat text.toList x := by
  unfold readFloat?
  generalize text.toList = chars
  constructor
  · intro h
    split at h
    · obtain ⟨y, hread, rfl⟩ := Option.map_eq_some_iff.mp h
      exact .minus (readMagnitude?_or_readSpecial?_eq_some_iff.mp hread)
    · exact .plus (readMagnitude?_or_readSpecial?_eq_some_iff.mp h)
    · exact .plain (readMagnitude?_or_readSpecial?_eq_some_iff.mp h)
  · intro h
    cases h with
    | plain h =>
        obtain ⟨c, hc, hplus, hminus⟩ := h.head
        split
        · cases hc
          exact absurd rfl hminus
        · cases hc
          exact absurd rfl hplus
        · exact readMagnitude?_or_readSpecial?_eq_some_iff.mpr h
    | plus h => exact readMagnitude?_or_readSpecial?_eq_some_iff.mpr h
    | minus h =>
        exact Option.map_eq_some_iff.mpr
          ⟨_, readMagnitude?_or_readSpecial?_eq_some_iff.mpr h, rfl⟩

end WindowedMetrics
