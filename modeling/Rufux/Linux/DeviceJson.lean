import Rufux.Linux.Device
import Rufux.Linux.MjsonText

/-!
The printed device list, read back. A quotation mark and a backslash are escaped in the vendor,
the model and the serial number, and nothing else is: a control character in a serial number
makes a text that no reader of JSON accepts.
-/

namespace Rufux.Linux

open Library Json

/-- The bytes stand for themselves in a JSON string, but for a quotation mark and a backslash. -/
def Visible (text : List UInt8) : Prop := ∀ byte ∈ text, 32 ≤ byte

/-- The bytes stand for themselves in a JSON string. -/
def Plain (text : List UInt8) : Prop := ∀ byte ∈ text, 32 ≤ byte ∧ byte ≠ 34 ∧ byte ≠ 92

instance (text : List UInt8) : Decidable (Visible text) :=
  inferInstanceAs (Decidable (∀ byte ∈ text, _))

instance (text : List UInt8) : Decidable (Plain text) :=
  inferInstanceAs (Decidable (∀ byte ∈ text, _))

/-! ### Strings -/

/-- A byte in front of the last part of a text does not make the last byte of the whole another. -/
theorem getLast?_cons_of {byte last : UInt8} {text : List UInt8}
    (ends : text.getLast? = some last) : (byte :: text).getLast? = some last := by
  cases text with
  | nil => simp at ends
  | cons first rest => rwa [List.getLast?_cons_cons]

theorem getLast?_append_of {front text : List UInt8} {last : UInt8}
    (ends : text.getLast? = some last) : (front ++ text).getLast? = some last := by
  rw [List.getLast?_append, ends]
  rfl

/-- How a text that was printed without escapes is read: as it is where it is plain, and else
short of a byte, or with the comma behind its quotation mark where it ends in a backslash. -/
def ReadShort (text out : List UInt8) : Prop :=
  out.length < text.length ∨ out.getLast? = some 44 ∧ text.getLast? = some 92

theorem ReadShort.ne {text : List UInt8} (short : ReadShort text text) : False := by
  rcases short with less | ⟨comma, backslash⟩
  · exact Nat.lt_irrefl _ less
  · rw [comma] at backslash
    exact absurd (Option.some.inj backslash) (by decide)

theorem ReadShort.push {text out front bytes : List UInt8} (short : ReadShort text out)
    (room : bytes.length ≤ front.length) : ReadShort (front ++ text) (bytes ++ out) := by
  rcases short with less | ⟨comma, backslash⟩
  · left
    simp only [List.length_append]
    omega
  · exact .inr ⟨getLast?_append_of comma, getLast?_append_of backslash⟩

/-- What an escape makes of the bytes it takes is shorter than they are. -/
theorem ReadShort.escape {text out front bytes : List UInt8}
    (read : Plain text ∧ out = text ∨ ReadShort text out) (room : bytes.length < front.length) :
    ReadShort (front ++ text) (bytes ++ out) := by
  rcases read with ⟨_, rfl⟩ | short
  · left
    simp only [List.length_append]
    omega
  · exact short.push (Nat.le_of_lt room)

/-- The digits of a `\u` escape all stand before a quotation mark that follows. -/
theorem hex4_inside {text rest : List UInt8} {unit : Nat}
    (read : hex4 (text ++ 34 :: rest) = some unit) : 4 ≤ text.length := by
  obtain ⟨a, b, c, d, w, x, y, z, left, same, first, second, third, fourth, -⟩ :=
    hex4_eq_some.mp read
  have quote {value : Nat} : hexDigit 34 ≠ some value := by
    have none : hexDigit 34 = none := by decide
    simp [none]
  rcases text with _ | ⟨p, _ | ⟨q, _ | ⟨r, _ | ⟨s, text⟩⟩⟩⟩
  · obtain ⟨rfl, -⟩ := List.cons.inj same
    exact absurd first quote
  · simp only [List.cons_append, List.nil_append, List.cons.injEq] at same
    obtain ⟨-, rfl, -⟩ := same
    exact absurd second quote
  · simp only [List.cons_append, List.nil_append, List.cons.injEq] at same
    obtain ⟨-, -, rfl, -⟩ := same
    exact absurd third quote
  · simp only [List.cons_append, List.nil_append, List.cons.injEq] at same
    obtain ⟨-, -, -, rfl, -⟩ := same
    exact absurd fourth quote
  · simp only [List.length_cons]
    omega

theorem pairAfter_inside {text rest : List UInt8} {cp point : Nat}
    (paired : pairAfter cp (text ++ 34 :: rest) = some point) : 6 ≤ text.length := by
  obtain ⟨low, left, -, -, same, read, -⟩ := pairAfter_eq_some.mp paired
  rcases text with _ | ⟨p, _ | ⟨q, text⟩⟩
  · exact absurd (List.cons.inj same).1 (by decide)
  · simp only [List.cons_append, List.nil_append, List.cons.injEq] at same
    exact absurd same.2.1 (by decide)
  · simp only [List.cons_append, List.cons.injEq] at same
    obtain ⟨-, -, rfl⟩ := same
    have inside := hex4_inside read
    simp only [List.length_cons]
    omega

/-- An escape begins inside the text, whose quotation mark is no letter of it. -/
theorem escape_inside {text rest more : List UInt8} {char letter : UInt8} (quote : char ≠ 34)
    (mark : letter = 117) (whole : text ++ 34 :: rest = char :: letter :: more) :
    ∃ left, text = char :: letter :: left ∧ more = left ++ 34 :: rest := by
  rcases text with _ | ⟨first, _ | ⟨second, text⟩⟩
  · exact absurd (List.cons.inj whole).1.symm quote
  · simp only [List.cons_append, List.nil_append, List.cons.injEq] at whole
    obtain ⟨-, rfl, -⟩ := whole
    exact absurd mark (by decide)
  · simp only [List.cons_append, List.cons.injEq] at whole
    obtain ⟨rfl, rfl, rfl⟩ := whole
    exact ⟨text, rfl, rfl⟩

/-- A text that is printed without escapes is read back as it is only where it needs none. -/
theorem parseString_raw {text rest out left : List UInt8}
    (parsed : parseString (text ++ 34 :: 44 :: 34 :: rest) = .ok (out, left)) :
    (Plain text ∧ out = text ∧ left = 44 :: 34 :: rest) ∨ ReadShort text out := by
  generalize whole : text ++ 34 :: 44 :: 34 :: rest = source at parsed
  fun_induction parseString source generalizing text out with
  | case1 => simp at whole
  | case2 after =>
    obtain ⟨rfl, rfl⟩ := Prod.mk.inj (Except.ok.inj parsed)
    cases text with
    | nil => exact .inl ⟨by simp [Plain], rfl, (List.cons.inj whole).2.symm⟩
    | cons char text => exact .inr (.inl (by simp))
  | case3 => cases parsed
  | case4 char after quote control plain ih =>
    obtain ⟨tail, inner, rfl⟩ := emit_eq_ok.mp parsed
    cases text with
    | nil => exact absurd (List.cons.inj whole).1.symm quote
    | cons first text =>
      simp only [List.cons_append, List.cons.injEq] at whole
      obtain ⟨rfl, behind⟩ := whole
      rcases ih behind inner with ⟨visible, rfl, same⟩ | short
      · refine .inl ⟨?_, rfl, same⟩
        have here : 32 ≤ first ∧ first ≠ 34 ∧ first ≠ 92 := ⟨UInt8.not_lt.mp control, quote, plain⟩
        simpa [Plain] using ⟨here, visible⟩
      · exact .inr (@ReadShort.push text tail [first] [first] short (Nat.le_refl 1))
  | case5 => cases parsed
  | case6 char quote control backslash letter more byte known ih =>
    obtain ⟨tail, inner, rfl⟩ := emit_eq_ok.mp parsed
    rcases text with _ | ⟨first, _ | ⟨second, text⟩⟩
    · exact absurd (List.cons.inj whole).1.symm quote
    · -- the quotation mark behind the text is escaped, and the one behind the comma closes
      simp only [List.cons_append, List.nil_append, List.cons.injEq] at whole
      obtain ⟨rfl, rfl, rfl⟩ := whole
      have closes : parseString (44 :: 34 :: rest) = .ok ([44], rest) := by
        rw [parseString_plain _ (by decide) (by decide) (by decide), parseString_close]
        rfl
      obtain ⟨rfl, -⟩ := Prod.mk.inj (Except.ok.inj (closes.symm.trans inner))
      exact .inr (.inr ⟨rfl, by simp [not_ne_iff.mp backslash]⟩)
    · simp only [List.cons_append, List.cons.injEq] at whole
      obtain ⟨rfl, rfl, behind⟩ := whole
      refine .inr (@ReadShort.escape text tail [first, second] [byte] ?_ (by simp))
      exact (ih behind inner).imp_left fun plain => ⟨plain.1, plain.2.1⟩
  | case7 => cases parsed
  | case8 => cases parsed
  | case9 char quote control backslash letter more unknown mark cp read point paired ih =>
    obtain ⟨tail, inner, rfl⟩ := emit_eq_ok.mp parsed
    obtain ⟨text, rfl, rfl⟩ := escape_inside quote (not_ne_iff.mp mark) whole
    have four := hex4_inside read
    rw [List.drop_append_of_le_length four] at paired
    have six := pairAfter_inside paired
    rw [List.length_drop] at six
    have ten : 10 ≤ text.length := by omega
    have short := (ih (List.drop_append_of_le_length ten).symm inner).imp_left fun plain =>
      And.intro plain.1 plain.2.1
    have room : (putUtf8 point).length < (char :: letter :: text.take 10).length := by
      have most := putUtf8_length_le point
      simp only [List.length_cons, List.length_take]
      omega
    have shorter := ReadShort.escape short room
    rw [List.cons_append, List.cons_append, List.take_append_drop] at shorter
    exact .inr shorter
  | case10 char quote control backslash letter more unknown mark cp read alone ih =>
    obtain ⟨tail, inner, rfl⟩ := emit_eq_ok.mp parsed
    obtain ⟨text, rfl, rfl⟩ := escape_inside quote (not_ne_iff.mp mark) whole
    have four := hex4_inside read
    have short := (ih (List.drop_append_of_le_length four).symm inner).imp_left fun plain =>
      And.intro plain.1 plain.2.1
    have room : (putUtf8 (if cp = 0 then 0xFFFD else cp)).length <
        (char :: letter :: text.take 4).length := by
      have most := putUtf8_length_le (if cp = 0 then 0xFFFD else cp)
      simp only [List.length_cons, List.length_take]
      omega
    have shorter := ReadShort.escape short room
    rw [List.cons_append, List.cons_append, List.take_append_drop] at shorter
    exact .inr shorter

/-- A string that is printed without escapes is read back exactly where it needs none. -/
theorem raw_read {text rest left : List UInt8}
    (parsed : parseString (text ++ 34 :: 44 :: 34 :: rest) = .ok (text, left)) :
    Plain text ∧ left = 44 :: 34 :: rest := by
  rcases parseString_raw parsed with ⟨plain, -, same⟩ | short
  · exact ⟨plain, same⟩
  · exact absurd short.ne id

theorem escaped_read {text rest : List UInt8} :
    parseString (jsonEscape text ++ 34 :: rest) =
      if Visible text then .ok (text, rest) else .error .controlCharacter := by
  induction text with
  | nil =>
    rw [if_pos (by simp [Visible])]
    exact parseString_close rest
  | cons char text ih =>
    have visible : Visible (char :: text) ↔ 32 ≤ char ∧ Visible text := by simp [Visible]
    rw [if_congr visible rfl rfl]
    unfold jsonEscape
    split
    · rename_i special
      have here : 32 ≤ char ∧ plainEscape char = some char := by
        rcases special with rfl | rfl <;> decide
      rw [List.cons_append, List.cons_append, parseString_escape _ here.2, ih]
      by_cases inside : Visible text
      · rw [if_pos inside, if_pos ⟨here.1, inside⟩]
        rfl
      · rw [if_neg inside, if_neg fun both => inside both.2]
        rfl
    · rename_i ordinary
      obtain ⟨quote, backslash⟩ := not_or.mp ordinary
      by_cases here : 32 ≤ char
      · rw [List.cons_append, parseString_plain _ here quote backslash, ih]
        by_cases inside : Visible text
        · rw [if_pos inside, if_pos ⟨here, inside⟩]
          rfl
        · rw [if_neg inside, if_neg fun both => inside both.2]
          rfl
      · rw [if_neg fun both => here both.1, List.cons_append, parseString.eq_def]
        dsimp only
        rw [if_neg quote, if_pos (UInt8.not_le.mp here)]

/-! ### Numbers -/

theorem nearestDouble_exact {value : Nat} :
    nearestDouble value = value ↔ 2 ^ (value.log2 - 52) ∣ value := by
  unfold nearestDouble
  generalize same : 2 ^ (value.log2 - 52) = unit
  have some_unit : 0 < unit := by
    rw [← same]
    exact Nat.two_pow_pos _
  have parts := Nat.div_add_mod value unit
  have small := Nat.mod_lt value some_unit
  rw [Nat.dvd_iff_mod_eq_zero]
  dsimp only
  rw [Nat.mul_comm] at parts
  split
  · rename_i up
    rw [Nat.add_mul, Nat.one_mul]
    omega
  · omega

theorem digitChar_byte {digit : Nat} (small : digit < 10) :
    isDigit (UInt8.ofNat digit.digitChar.toNat) = true ∧
      (UInt8.ofNat digit.digitChar.toNat).toNat = 48 + digit := by
  revert digit
  decide

/-- The decimal digits of a positive number begin with another digit than zero. -/
theorem digits_positive {value : Nat} (positive : 0 < value) :
    ∃ first rest, (Nat.toDigits 10 value).map (fun char => UInt8.ofNat char.toNat) = first :: rest ∧
      isDigit first = true ∧ first ≠ 48 ∧ Digits rest := by
  induction value using Nat.strongRecOn with
  | ind value ih =>
    rw [Nat.toDigits_eq_if (by decide)]
    split
    · rename_i small
      obtain ⟨digit, value_eq⟩ := digitChar_byte small
      refine ⟨_, [], rfl, digit, ?_, by simp [Digits]⟩
      intro zero
      have sum : 48 = 48 + value := (congrArg UInt8.toNat zero).symm.trans value_eq
      omega
    · rename_i large
      obtain ⟨first, rest, shape, digit, other, all⟩ := ih (value / 10) (by omega) (by omega)
      obtain ⟨last, -⟩ := digitChar_byte (Nat.mod_lt value (by decide : 0 < 10))
      refine ⟨first, rest ++ [_], by rw [List.map_append, shape]; rfl, digit, other, ?_⟩
      intro byte inside
      rcases List.mem_append.mp inside with before | here
      · exact all byte before
      · rw [List.mem_singleton.mp here]
        exact last

theorem printNumber_whole (value : UInt64) : WholePart (printNumber value) := by
  unfold printNumber
  rcases Nat.eq_zero_or_pos value.toNat with zero | positive
  · rw [zero]
    exact .zero
  · obtain ⟨first, rest, shape, digit, other, all⟩ := digits_positive positive
    rw [shape]
    exact .digits digit other all

theorem printNumber_number (value : UInt64) : Number (printNumber value) :=
  ⟨[], _, [], [], .inl rfl, printNumber_whole value, .absent, .absent, by simp⟩

/-- The number that a token of digits stands for. -/
theorem printNumber_value (value : UInt64) :
    (printNumber value).foldl (fun n digit => n * 10 + (digit.toNat - 48)) 0 = value.toNat := by
  have each {chars : List Char} (digits : ∀ char ∈ chars, char.isDigit = true) (start : Nat) :
      (chars.map fun char => UInt8.ofNat char.toNat).foldl
        (fun n digit => n * 10 + (digit.toNat - 48)) start = Nat.ofDigitChars 10 chars start := by
    induction chars generalizing start with
    | nil => rfl
    | cons char chars ih =>
      have digit := digits char List.mem_cons_self
      simp only [Char.isDigit, Bool.and_eq_true, decide_eq_true_eq] at digit
      have top : char.toNat ≤ 57 := digit.2
      have byte : (UInt8.ofNat char.toNat).toNat = char.toNat := by
        rw [UInt8.toNat_ofNat']
        omega
      have zero : '0'.toNat = 48 := rfl
      rw [List.map_cons, List.foldl_cons, ih fun other inside => digits other
        (List.mem_cons_of_mem _ inside), Nat.ofDigitChars_cons, byte, zero, Nat.mul_comm]
  rw [printNumber, each fun char inside => Nat.isDigit_of_mem_toDigits (by decide) (by decide) inside,
    Nat.ofDigitChars_ten_toDigits]

theorem mjNum_printNumber (value : UInt64) :
    mjNum (some (.num (printNumber value))) = some (nearestDouble value.toNat) := by
  have digits : (printNumber value).all isDigit = true :=
    List.all_eq_true.mpr (printNumber_whole value).all_digits.1
  rw [mjNum, if_pos digits, printNumber_value]

theorem comma_bytes : String.utf8EncodeChar ',' = [44] := by decide

theorem pointBytes_comma (locale : Locale) : locale.pointBytes = [44] ↔ locale.point = ',' := by
  unfold Locale.pointBytes
  constructor
  · intro same
    rw [← comma_bytes] at same
    exact (utf8EncodeChar_cancel (congrArg (· ++ []) same)).1
  · intro same
    rw [same, comma_bytes]

/-- No decimal point but the comma begins with one. -/
theorem pointBytes_begins (locale : Locale) (text : List UInt8) :
    locale.pointBytes.isPrefixOf (44 :: text) = true ↔ locale.pointBytes = [44] := by
  constructor
  · intro begins
    obtain ⟨rest, split⟩ := List.isPrefixOf_iff_prefix.mp begins
    have same : String.utf8EncodeChar locale.point ++ rest = String.utf8EncodeChar ',' ++ text := by
      rw [comma_bytes]
      exact split
    exact (pointBytes_comma locale).mpr (utf8EncodeChar_cancel same).1
  · intro same
    rw [same]
    rfl

theorem mantissaLen_comma {point rest whole : List UInt8} (digits : Digits whole)
    (some_whole : whole ≠ []) (comma : point.isPrefixOf (44 :: 34 :: rest) = true ↔ point = [44]) :
    mantissaLen isDigit point (whole ++ 44 :: 34 :: rest) =
      whole.length + if point = [44] then 1 else 0 := by
  have taken : (whole ++ 44 :: 34 :: rest).takeWhile isDigit = whole :=
    takeWhile_stops digits fun char head => by
      rw [← Option.some.inj head]
      rfl
  have some_length : whole.length ≠ 0 := by simpa using some_whole
  unfold mantissaLen
  rw [taken]
  dsimp only
  rw [List.drop_left]
  by_cases same : point = [44]
  · rw [if_pos same, if_pos (comma.mpr same), same]
    have none : ((44 :: 34 :: rest).drop ([44] : List UInt8).length).takeWhile isDigit = [] := rfl
    rw [none, if_neg (by simpa using some_whole)]
    rfl
  · rw [if_neg same, if_neg fun begins => same (comma.mp begins)]
    rfl

/-- What `strtod` takes of a number with a comma behind it: the comma too where it is the decimal
point of the locale. -/
theorem strtodLen_comma {point rest whole : List UInt8} (valid : WholePart whole)
    (comma : point.isPrefixOf (44 :: 34 :: rest) = true ↔ point = [44]) :
    strtodLen point (whole ++ 44 :: 34 :: rest) = whole.length + if point = [44] then 1 else 0 := by
  obtain ⟨digits, some_whole⟩ := valid.all_digits
  have mantissa := mantissaLen_comma digits some_whole comma
  have float : floatLen isDigit 101 point (whole ++ 44 :: 34 :: rest) =
      whole.length + if point = [44] then 1 else 0 := by
    have some_length : whole.length ≠ 0 := by simpa using some_whole
    unfold floatLen
    rw [mantissa]
    dsimp only
    rw [if_neg (by omega), List.drop_append, List.drop_eq_nil_of_le (by omega),
      Nat.add_sub_cancel_left]
    split
    · rfl
    · rfl
  obtain ⟨first, others, rfl⟩ := List.exists_cons_of_ne_nil some_whole
  have digit := digits first List.mem_cons_self
  have decimal : hexMark (first :: others ++ 44 :: 34 :: rest) = false := by
    cases valid with
    | zero => rfl
    | digits _ other => simp [hexMark, other]
  have unsigned : ¬(first = 43 ∨ first = 45) := by
    rintro (rfl | rfl)
    · cases digit
    · cases digit
  rw [List.cons_append] at decimal float ⊢
  unfold strtodLen
  dsimp only
  rw [if_neg unsigned]
  unfold unsignedLen
  rw [startsWith_digit digit rfl, startsWith_digit digit rfl, startsWith_digit digit rfl, decimal,
    float]
  rfl

/-! ### Members -/

theorem plain_chars {text : List UInt8} (plain : Plain text) : Chars text (text.map .byte) := by
  induction text with
  | nil => exact .nil
  | cons char text ih =>
    obtain ⟨visible, quote, backslash⟩ := plain char List.mem_cons_self
    exact .plain visible quote backslash (ih fun other inside =>
      plain other (List.mem_cons_of_mem _ inside))

theorem escaped_chars {text : List UInt8} (visible : Visible text) :
    Chars (jsonEscape text) (text.map .byte) := by
  induction text with
  | nil => exact .nil
  | cons char text ih =>
    have later := ih fun other inside => visible other (List.mem_cons_of_mem _ inside)
    unfold jsonEscape
    split
    · rename_i special
      have listed : (char, char) ∈ escapes := by
        rcases special with rfl | rfl <;> decide
      exact .escape listed later
    · rename_i ordinary
      obtain ⟨quote, backslash⟩ := not_or.mp ordinary
      exact .plain (visible char List.mem_cons_self) quote backslash later

theorem decode_map (text : List UInt8) : decode 0xFFFD (text.map .byte) = text := by
  have whole := decode_bytes text []
  rwa [List.append_nil, decode, List.append_nil] at whole

theorem parseString_chars {body rest text : List UInt8} (chars : Chars body (text.map .byte)) :
    parseString (body ++ 34 :: rest) = .ok (text, rest) := by
  rw [parseString_complete chars, decode_map]

theorem skipWs_visible {char : UInt8} {text : List UInt8} (visible : isWs char = false) :
    skipWs (char :: text) = char :: text := skipWs_cons visible text

/-- What a reader does with one member of an object, whatever becomes of the rest. -/
theorem parseMembers_member {below : List UInt8 → Except JsonError (Json × List UInt8)}
    {rounds : Nat} {key text rest : List UInt8} {members : List (List UInt8 × Json)}
    (plain : Plain key)
    (parsed : parseMembers below true rounds (34 :: (key ++ 34 :: 58 :: text)) =
      .ok (members, rest)) :
    ∃ kid after more, below text = .ok (kid, after) ∧ members = (key, kid) :: more ∧
      ((∃ rounds left, skipWs after = 44 :: left ∧
          parseMembers below true rounds left = .ok (more, rest)) ∨
        skipWs after = 125 :: rest ∧ more = []) := by
  cases rounds with
  | zero => cases parsed
  | succ rounds =>
    have name : memberName true (34 :: (key ++ 34 :: 58 :: text)) = .ok (key, text) := by
      unfold memberName
      simp only [Bool.not_true, Bool.false_eq_true, if_false]
      rw [parseString_chars (plain_chars plain)]
      dsimp only
      rw [skipWs_visible (by decide)]
      rfl
    rw [parseMembers, skipWs_visible (by decide), name] at parsed
    dsimp only at parsed
    split at parsed
    · cases parsed
    · rename_i kid after value
      split at parsed
      · cases parsed
      · rename_i char left next
        split at parsed
        · rename_i comma
          obtain ⟨⟨more, rest'⟩, later, same⟩ := map_eq_ok.mp parsed
          obtain ⟨rfl, rfl⟩ := Prod.mk.inj same
          exact ⟨kid, after, more, value, rfl, .inl ⟨rounds, left, comma ▸ next, later⟩⟩
        · split at parsed
          · rename_i close
            obtain ⟨rfl, rfl⟩ := Prod.mk.inj (Except.ok.inj parsed)
            obtain rfl := close
            exact ⟨kid, after, [], value, rfl, .inr ⟨next, rfl⟩⟩
          · cases parsed

/-! ### Values -/

section Values

variable {point text rest after : List UInt8} {levels : Nat} {kid : Json}

theorem parseValue_char {char : UInt8} (visible : isWs char = false)
    (bracket : ¬(char = 123 ∨ char = 91)) :
    parseValue point (levels + 1) (char :: rest) = parseScalar point (char :: rest) char := by
  rw [parseValue, skipWs_visible visible]
  dsimp only
  rw [if_neg bracket]

theorem rawValue
    (parsed : parseValue point (levels + 1) (34 :: (text ++ 34 :: 44 :: 34 :: rest)) =
      .ok (kid, after)) (same : mjStr (some kid) = some text) :
    Plain text ∧ after = 44 :: 34 :: rest := by
  rw [parseValue_char (by decide) (by decide)] at parsed
  unfold parseScalar at parsed
  rw [if_pos rfl] at parsed
  obtain ⟨⟨string, left⟩, inner, pair⟩ := map_eq_ok.mp parsed
  obtain ⟨rfl, rfl⟩ := Prod.mk.inj pair
  obtain rfl := Option.some.inj same
  exact raw_read inner

theorem escapedValue
    (parsed : parseValue point (levels + 1) (34 :: (jsonEscape text ++ 34 :: rest)) =
      .ok (kid, after)) : Visible text ∧ after = rest := by
  rw [parseValue_char (by decide) (by decide)] at parsed
  unfold parseScalar at parsed
  rw [if_pos rfl] at parsed
  obtain ⟨⟨string, left⟩, inner, pair⟩ := map_eq_ok.mp parsed
  obtain ⟨rfl, rfl⟩ := Prod.mk.inj pair
  rw [List.tail_cons, escaped_read] at inner
  split at inner
  · rename_i visible
    exact ⟨visible, (Prod.mk.inj (Except.ok.inj inner)).2.symm⟩
  · cases inner

theorem parseValue_bool (value : Bool) :
    parseValue point (levels + 1) (printBool value ++ rest) = .ok (.bool value, rest) := by
  cases value with
  | false =>
    have shape : printBool false ++ rest = 102 :: 97 :: 108 :: 115 :: 101 :: rest := rfl
    rw [shape, parseValue_char (by decide) (by decide)]
    rfl
  | true =>
    have shape : printBool true ++ rest = 116 :: 114 :: 117 :: 101 :: rest := rfl
    rw [shape, parseValue_char (by decide) (by decide)]
    rfl

/-- How the number of bytes is read, with its comma or without it. -/
theorem parseValue_number (locale : Locale) (value : UInt64) :
    parseValue locale.pointBytes (levels + 1) (printNumber value ++ 44 :: 34 :: rest) =
      if locale.point = ',' then .ok (.num (printNumber value ++ [44]), 34 :: rest)
      else .ok (.num (printNumber value), 44 :: 34 :: rest) := by
  have whole := printNumber_whole value
  have taken := @strtodLen_comma _ rest _ whole (pointBytes_begins locale (34 :: rest))
  rw [if_congr (pointBytes_comma locale) rfl rfl] at taken
  generalize printNumber value = token at whole taken ⊢
  obtain ⟨digits, some_digits⟩ := whole.all_digits
  obtain ⟨first, others, rfl⟩ := List.exists_cons_of_ne_nil some_digits
  have digit := digits first List.mem_cons_self
  have range := numberStart (.inr digit)
  have other (char : Nat) (outside : char % 256 < 45 ∨ 57 < char % 256) :
      first ≠ UInt8.ofNat char := ne_of_toNat (by omega)
  have blank : isWs first = false := by
    have space := other 32 (by decide)
    have tab := other 9 (by decide)
    have newline := other 10 (by decide)
    have return_char := other 13 (by decide)
    unfold isWs
    simp_all
  have bracket : ¬(first = 123 ∨ first = 91) := by
    rintro (brace | square)
    · exact other 123 (by decide) brace
    · exact other 91 (by decide) square
  have quote : first ≠ 34 := other 34 (by decide)
  have t : first ≠ 116 := other 116 (by decide)
  have f : first ≠ 102 := other 102 (by decide)
  have n : first ≠ 110 := other 110 (by decide)
  rw [List.cons_append] at taken ⊢
  rw [parseValue_char blank bracket]
  unfold parseScalar
  rw [if_neg quote, if_neg (by simp [t.symm]), if_neg (by simp [f.symm]), if_neg (by simp [n.symm]),
    if_pos (.inr digit), taken]
  by_cases comma : locale.point = ','
  · have shape : first :: (others ++ 44 :: 34 :: rest) = (first :: others ++ [44]) ++ 34 :: rest := by
      simp
    have size : (first :: others).length + 1 = (first :: others ++ [44]).length := by simp
    rw [if_pos comma, if_pos comma, if_neg (by omega), size, shape, List.take_left, List.drop_left]
  · rw [if_neg comma, if_neg comma, if_neg (by simp), Nat.add_zero, ← List.cons_append,
      List.take_left, List.drop_left]

/-! ### The members of a device -/

variable {rounds : Nat} {members : List (List UInt8 × Json)}

/-- A member of an object up to its value. -/
def member (key : String) (text : List UInt8) : List UInt8 := 34 :: (ascii key ++ 34 :: 58 :: text)

theorem mjGet_head (key : String) (kid : Json) (more : List (List UInt8 × Json)) :
    mjGet (.node true ((ascii key, kid) :: more)) key = some kid := by
  simp [mjGet]

theorem mjGet_tail {key other : String} (different : ascii other ≠ ascii key) (kid : Json)
    (more : List (List UInt8 × Json)) :
    mjGet (.node true ((ascii other, kid) :: more)) key = mjGet (.node true more) key := by
  simp [mjGet, different]

/-- What comes of a member whose value is read up to a comma. -/
theorem member_comma (key : String) (plain : Plain (ascii key))
    (parsed : parseMembers (parseValue point (levels + 1)) true rounds (member key text) =
      .ok (members, after))
    (value : ∀ kid left, parseValue point (levels + 1) text = .ok (kid, left) →
      mjGet (.node true members) key = some kid →
      (skipWs left).head? = some 44 ∨ (skipWs left).head? = some 125 → left = 44 :: rest) :
    ∃ kid more rounds, parseValue point (levels + 1) text = .ok (kid, 44 :: rest) ∧
      members = (ascii key, kid) :: more ∧
      parseMembers (parseValue point (levels + 1)) true rounds rest = .ok (more, after) := by
  obtain ⟨kid, left, more, read, rfl, next⟩ := parseMembers_member plain parsed
  have goes : (skipWs left).head? = some 44 ∨ (skipWs left).head? = some 125 := by
    rcases next with ⟨_, _, comma, _⟩ | ⟨close, _⟩
    · exact .inl (by rw [comma]; rfl)
    · exact .inr (by rw [close]; rfl)
  obtain rfl := value kid left read (mjGet_head key kid more) goes
  rw [skipWs_visible (by decide)] at next
  rcases next with ⟨rounds, left, same, later⟩ | ⟨same, -⟩
  · obtain ⟨-, rfl⟩ := List.cons.inj same
    exact ⟨kid, more, rounds, read, rfl, later⟩
  · exact absurd (List.cons.inj same).1 (by decide)

theorem rawMember (key : String) {next : String} (plain : Plain (ascii key))
    (parsed : parseMembers (parseValue point (levels + 1)) true rounds
      (member key (34 :: (text ++ 34 :: 44 :: member next rest))) = .ok (members, after))
    (same : mjStr (mjGet (.node true members) key) = some text) :
    Plain text ∧ ∃ kid more rounds, members = (ascii key, kid) :: more ∧
      parseMembers (parseValue point (levels + 1)) true rounds (member next rest) =
        .ok (more, after) := by
  obtain ⟨kid, more, rounds, read, rfl, later⟩ := member_comma key plain parsed
    fun kid left read got _ => (rawValue read (got ▸ same)).2
  rw [mjGet_head] at same
  exact ⟨(rawValue read same).1, kid, more, rounds, rfl, later⟩

theorem escapedMember (key : String) (plain : Plain (ascii key))
    (parsed : parseMembers (parseValue point (levels + 1)) true rounds
      (member key (34 :: (jsonEscape text ++ 34 :: 44 :: rest))) = .ok (members, after)) :
    Visible text ∧ ∃ kid more rounds, members = (ascii key, kid) :: more ∧
      parseMembers (parseValue point (levels + 1)) true rounds rest = .ok (more, after) := by
  obtain ⟨kid, more, rounds, read, rfl, later⟩ := member_comma key plain parsed
    fun kid left read _ _ => (escapedValue read).2
  exact ⟨(escapedValue read).1, kid, more, rounds, rfl, later⟩

theorem boolMember (key : String) {value : Bool} (plain : Plain (ascii key))
    (parsed : parseMembers (parseValue point (levels + 1)) true rounds
      (member key (printBool value ++ 44 :: rest)) = .ok (members, after)) :
    ∃ kid more rounds, members = (ascii key, kid) :: more ∧
      parseMembers (parseValue point (levels + 1)) true rounds rest = .ok (more, after) := by
  obtain ⟨kid, more, rounds, read, rfl, later⟩ := member_comma key plain parsed
    fun kid left read _ _ => by
      rw [parseValue_bool] at read
      exact (Prod.mk.inj (Except.ok.inj read)).2.symm
  exact ⟨kid, more, rounds, rfl, later⟩

theorem numberMember (key : String) {next : String} {value : UInt64} {locale : Locale}
    (plain : Plain (ascii key))
    (parsed : parseMembers (parseValue locale.pointBytes (levels + 1)) true rounds
      (member key (printNumber value ++ 44 :: member next rest)) = .ok (members, after)) :
    locale.point ≠ ',' ∧ ∃ more rounds, members = (ascii key, .num (printNumber value)) :: more ∧
      parseMembers (parseValue locale.pointBytes (levels + 1)) true rounds (member next rest) =
        .ok (more, after) := by
  have shape : member next rest = 34 :: (ascii next ++ 34 :: 58 :: rest) := rfl
  rw [shape] at parsed ⊢
  have whole : locale.point ≠ ',' := by
    intro comma
    obtain ⟨kid, left, more, read, -, next⟩ := parseMembers_member plain parsed
    rw [parseValue_number, if_pos comma] at read
    obtain ⟨-, rfl⟩ := Prod.mk.inj (Except.ok.inj read)
    rw [skipWs_visible (by decide)] at next
    rcases next with ⟨_, _, same, _⟩ | ⟨same, _⟩
    · exact absurd (List.cons.inj same).1 (by decide)
    · exact absurd (List.cons.inj same).1 (by decide)
  obtain ⟨kid, more, rounds, read, rfl, later⟩ := member_comma key plain parsed
    fun kid left read _ _ => by
      rw [parseValue_number, if_neg whole] at read
      exact (Prod.mk.inj (Except.ok.inj read)).2.symm
  rw [parseValue_number, if_neg whole] at read
  obtain ⟨rfl, -⟩ := Prod.mk.inj (Except.ok.inj read)
  exact ⟨whole, more, rounds, rfl, later⟩

end Values

/-! ### A device -/

/-- The members of the tree, as the accessors return them, say what the device's fields say. -/
structure SameFields (tree : Json) (dev : RufuxDevice) : Prop where
  node : mjStr (mjGet tree "node") = some dev.devnode.bytes
  sys : mjStr (mjGet tree "sys") = some dev.sysname.bytes
  size : mjNum (mjGet tree "size_bytes") = some dev.sizeBytes.toNat
  removable : mjBool (mjGet tree "removable") = dev.removable
  usb : mjBool (mjGet tree "usb") = dev.isUsb
  mounted : mjBool (mjGet tree "mounted") = dev.mounted
  transport : mjStr (mjGet tree "transport") = some dev.transport.bytes
  vendor : mjStr (mjGet tree "vendor") = some dev.vendor.bytes
  model : mjStr (mjGet tree "model") = some dev.model.bytes
  serial : mjStr (mjGet tree "serial") = some dev.serial.bytes

/-- What is printed without escapes needs none, no other text holds a control character, and the
size is a double. -/
structure Printable (dev : RufuxDevice) : Prop where
  node : Plain dev.devnode.bytes
  sys : Plain dev.sysname.bytes
  transport : Plain dev.transport.bytes
  vendor : Visible dev.vendor.bytes
  model : Visible dev.model.bytes
  serial : Visible dev.serial.bytes
  size : 2 ^ (dev.sizeBytes.toNat.log2 - 52) ∣ dev.sizeBytes.toNat

/-- The members of a device from `"transport"` on. -/
def textMembers (dev : RufuxDevice) (rest : List UInt8) : List UInt8 :=
  member "transport" (34 :: (dev.transport.bytes ++ 34 :: 44 ::
    member "vendor" (34 :: (jsonEscape dev.vendor.bytes ++ 34 :: 44 ::
      member "model" (34 :: (jsonEscape dev.model.bytes ++ 34 :: 44 ::
        member "serial" (34 :: (jsonEscape dev.serial.bytes ++ 34 :: 125 :: rest))))))))

def deviceMembers (dev : RufuxDevice) (rest : List UInt8) : List UInt8 :=
  member "node" (34 :: (dev.devnode.bytes ++ 34 :: 44 ::
    member "sys" (34 :: (dev.sysname.bytes ++ 34 :: 44 ::
      member "size_bytes" (printNumber dev.sizeBytes ++ 44 ::
        member "removable" (printBool dev.removable ++ 44 ::
          member "usb" (printBool dev.isUsb ++ 44 ::
            member "mounted" (printBool dev.mounted ++ 44 :: textMembers dev rest))))))))

theorem printDevice_shape (dev : RufuxDevice) (rest : List UInt8) :
    printDevice dev ++ rest = 32 :: 32 :: 123 :: deviceMembers dev rest := by
  have node : ascii "  \x7b\"node\":\"" = 32 :: 32 :: 123 :: member "node" [34] := by decide
  have sys : ascii "\",\"sys\":\"" = 34 :: 44 :: member "sys" [34] := by decide
  have size : ascii "\",\"size_bytes\":" = 34 :: 44 :: member "size_bytes" [] := by decide
  have removable : ascii ",\"removable\":" = 44 :: member "removable" [] := by decide
  have usb : ascii ",\"usb\":" = 44 :: member "usb" [] := by decide
  have mounted : ascii ",\"mounted\":" = 44 :: member "mounted" [] := by decide
  have transport : ascii ",\"transport\":\"" = 44 :: member "transport" [34] := by decide
  have vendor : ascii "\",\"vendor\":\"" = 34 :: 44 :: member "vendor" [34] := by decide
  have model : ascii "\",\"model\":\"" = 34 :: 44 :: member "model" [34] := by decide
  have serial : ascii "\",\"serial\":\"" = 34 :: 44 :: member "serial" [34] := by decide
  have close : ascii "\"\x7d" = [34, 125] := by decide
  unfold printDevice deviceMembers textMembers
  rw [node, sys, size, removable, usb, mounted, transport, vendor, model, serial, close]
  simp only [member, List.append_assoc, List.cons_append, List.nil_append]

section Device

variable {levels : Nat} {rest after : List UInt8} {tree : Json} {locale : Locale}
  {dev : RufuxDevice} {rounds : Nat} {members : List (List UInt8 × Json)}

/-- Where the members from `"transport"` on are read with the same transport, they end where the
device ends. -/
theorem textMembers_read {point : List UInt8}
    (parsed : parseMembers (parseValue point (levels + 1)) true rounds (textMembers dev rest) =
      .ok (members, after))
    (same : mjStr (mjGet (.node true members) "transport") = some dev.transport.bytes) :
    (Plain dev.transport.bytes ∧ Visible dev.vendor.bytes ∧ Visible dev.model.bytes ∧
      Visible dev.serial.bytes) ∧ after = rest := by
  unfold textMembers at parsed
  obtain ⟨transport, _, _, _, rfl, vendors⟩ :=
    rawMember "transport" (by decide +kernel) parsed same
  obtain ⟨vendor, _, _, _, rfl, models⟩ := escapedMember "vendor" (by decide +kernel) vendors
  obtain ⟨model, _, _, _, rfl, serials⟩ := escapedMember "model" (by decide +kernel) models
  obtain ⟨kid, left, more, read, rfl, next⟩ :=
    @parseMembers_member _ _ (ascii "serial") _ _ _ (by decide +kernel) serials
  obtain ⟨serial, rfl⟩ := escapedValue read
  refine ⟨⟨transport, vendor, model, serial⟩, ?_⟩
  rw [skipWs_visible (by decide)] at next
  rcases next with ⟨_, _, same, _⟩ | ⟨same, _⟩
  · exact absurd (List.cons.inj same).1 (by decide)
  · exact (List.cons.inj same).2.symm

/-- Where the device is read with its own fields, nothing in it needs an escape that it lacks. -/
theorem device_read
    (parsed : parseValue locale.pointBytes (levels + 2) (printDevice dev ++ rest) =
      .ok (tree, after)) (same : SameFields tree dev) :
    locale.point ≠ ',' ∧ Printable dev ∧ after = rest := by
  rw [printDevice_shape, parseValue, skipWs, List.dropWhile_cons_of_pos (by decide),
    List.dropWhile_cons_of_pos (by decide), List.dropWhile_cons_of_neg (by decide)] at parsed
  dsimp only at parsed
  rw [if_pos (.inl rfl)] at parsed
  have visible : skipWs (deviceMembers dev rest) = deviceMembers dev rest :=
    skipWs_visible (by decide)
  unfold parseContainer at parsed
  have named : decide ((123 : UInt8) = 123) = true := rfl
  have open_ : ¬(deviceMembers dev rest).head? = some (closing true) := by
    simp [deviceMembers, member, closing]
  rw [visible, named, if_neg open_] at parsed
  unfold deviceMembers at parsed
  obtain ⟨⟨members, left⟩, inner, pair⟩ := map_eq_ok.mp parsed
  obtain ⟨rfl, rfl⟩ := Prod.mk.inj pair
  obtain ⟨node, _, _, _, rfl, names⟩ := rawMember "node" (by decide +kernel) inner same.node
  have sysSame := same.sys
  rw [mjGet_tail (by decide +kernel)] at sysSame
  obtain ⟨sys, _, _, _, rfl, sizes⟩ := rawMember "sys" (by decide +kernel) names sysSame
  have sizeSame := same.size
  have transportSame := same.transport
  rw [mjGet_tail (by decide +kernel), mjGet_tail (by decide +kernel)] at sizeSame transportSame
  obtain ⟨comma, _, _, rfl, removables⟩ := numberMember "size_bytes" (by decide +kernel) sizes
  rw [mjGet_head, mjNum_printNumber] at sizeSame
  have size := nearestDouble_exact.mp (Option.some.inj sizeSame)
  obtain ⟨_, _, _, rfl, usbs⟩ := boolMember "removable" (by decide +kernel) removables
  obtain ⟨_, _, _, rfl, mounts⟩ := boolMember "usb" (by decide +kernel) usbs
  obtain ⟨_, _, _, rfl, texts⟩ := boolMember "mounted" (by decide +kernel) mounts
  rw [mjGet_tail (by decide +kernel), mjGet_tail (by decide +kernel), mjGet_tail (by decide +kernel),
    mjGet_tail (by decide +kernel)] at transportSame
  obtain ⟨⟨transport, vendor, model, serial⟩, ends⟩ := textMembers_read texts transportSame
  exact ⟨comma, ⟨node, sys, transport, vendor, model, serial, size⟩, ends⟩

end Device

/-! ### What the text is -/

def deviceTree (dev : RufuxDevice) : Json :=
  .node true [(ascii "node", .str dev.devnode.bytes), (ascii "sys", .str dev.sysname.bytes),
    (ascii "size_bytes", .num (printNumber dev.sizeBytes)),
    (ascii "removable", .bool dev.removable), (ascii "usb", .bool dev.isUsb),
    (ascii "mounted", .bool dev.mounted), (ascii "transport", .str dev.transport.bytes),
    (ascii "vendor", .str dev.vendor.bytes), (ascii "model", .str dev.model.bytes),
    (ascii "serial", .str dev.serial.bytes)]

def listTree (devs : List RufuxDevice) : Json :=
  .node false (devs.map fun dev => ([], deviceTree dev))

section Reads

variable {number : List UInt8 → List UInt8 → Prop} {levels : Nat} {text rest next after : List UInt8}
  {kid : Json} {more : List (List UInt8 × Json)}

theorem ws_nil : Ws [] := fun _ inside => absurd inside (by simp)

theorem string_reads {body : List UInt8} (chars : Chars body (text.map .byte)) :
    Reads number 0xFFFD levels (.value (.str text)) (34 :: (body ++ 34 :: rest)) rest := by
  have reads : Reads number 0xFFFD levels _ _ rest := .str chars
  rwa [decode_map] at reads

theorem bool_reads (value : Bool) :
    Reads number 0xFFFD levels (.value (.bool value)) (printBool value ++ rest) rest := by
  cases value with
  | false => exact .no
  | true => exact .yes

theorem member_reads (key : String) (plain : Plain (ascii key))
    (value : Reads number 0xFFFD levels (.value kid) text rest) :
    Reads number 0xFFFD levels (.member true (ascii key) kid) (member key text) rest := by
  have reads := Reads.pair ws_nil (plain_chars plain) ws_nil ws_nil value
  rwa [decode_map] at reads

theorem more_reads (key : String) (plain : Plain (ascii key))
    (value : Reads number 0xFFFD levels (.value kid) text (44 :: next))
    (later : Reads number 0xFFFD levels (.members true more) next after) :
    Reads number 0xFFFD levels (.members true ((ascii key, kid) :: more)) (member key text)
      after := by
  have first : Reads number 0xFFFD levels (.member true (ascii key) kid) (member key text)
      ([] ++ 44 :: next) := member_reads key plain value
  exact .more first ws_nil later

theorem device_reads {dev : RufuxDevice} (good : Printable dev)
    (digits : ∀ left, number (printNumber dev.sizeBytes) (44 :: 34 :: left)) :
    Reads number 0xFFFD (levels + 1) (.value (deviceTree dev)) (123 :: deviceMembers dev rest)
      rest := by
  have serial : Reads number 0xFFFD levels (.member true (ascii "serial") (.str dev.serial.bytes))
      (member "serial" (34 :: (jsonEscape dev.serial.bytes ++ 34 :: 125 :: rest)))
      ([] ++ closing true :: rest) :=
    member_reads "serial" (by decide +kernel) (string_reads (escaped_chars good.serial))
  have model := more_reads "model" (by decide +kernel)
    (string_reads (escaped_chars good.model)) (.last serial ws_nil)
  have vendor := more_reads "vendor" (by decide +kernel)
    (string_reads (escaped_chars good.vendor)) model
  have transport := more_reads "transport" (by decide +kernel)
    (string_reads (plain_chars good.transport)) vendor
  have mounted := more_reads "mounted" (by decide +kernel) (bool_reads dev.mounted) transport
  have usb := more_reads "usb" (by decide +kernel) (bool_reads dev.isUsb) mounted
  have removable := more_reads "removable" (by decide +kernel) (bool_reads dev.removable) usb
  have size := more_reads "size_bytes" (by decide +kernel) (.num (digits _)) removable
  have sys := more_reads "sys" (by decide +kernel) (string_reads (plain_chars good.sys)) size
  have node := more_reads "node" (by decide +kernel) (string_reads (plain_chars good.node)) sys
  exact .node node

theorem printEach_last (dev : RufuxDevice) (rest : List UInt8) :
    printEach [dev] ++ rest = 32 :: 32 :: 123 :: deviceMembers dev (10 :: rest) := by
  rw [← printDevice_shape]
  have newline : ascii "\n" = [10] := rfl
  simp [printEach, newline]

theorem printEach_more (dev second : RufuxDevice) (devs : List RufuxDevice) (rest : List UInt8) :
    printEach (dev :: second :: devs) ++ rest =
      32 :: 32 :: 123 :: deviceMembers dev (44 :: ([10] ++ (printEach (second :: devs) ++ rest))) := by
  rw [← printDevice_shape, printEach]
  have newline : ascii "\n" = [10] := rfl
  have comma : ascii "," = [44] := rfl
  simp [newline, comma]

theorem blanks_split (before text : List UInt8) :
    before ++ 32 :: 32 :: text = (before ++ [32, 32]) ++ text := by
  simp

/-- The array of the devices from the first of them on. -/
theorem each_reads {devs : List RufuxDevice} (some_devs : devs ≠ []) {before : List UInt8}
    (ws : Ws before) (good : ∀ dev ∈ devs, Printable dev)
    (digits : ∀ dev ∈ devs, ∀ left, number (printNumber dev.sizeBytes) (44 :: 34 :: left)) :
    Reads number 0xFFFD (levels + 1)
      (.members false (devs.map fun dev => ([], deviceTree dev)))
      (before ++ (printEach devs ++ 93 :: rest)) rest := by
  induction devs generalizing before with
  | nil => exact absurd rfl some_devs
  | cons dev devs ih =>
    have blanks : Ws (before ++ [32, 32]) := ws.append (by simp [Ws, isWs])
    have newline : Ws [10] := by simp [Ws, isWs]
    have here (next : List UInt8) : Reads number 0xFFFD (levels + 1) (.member false [] (deviceTree dev))
        ((before ++ [32, 32]) ++ 123 :: deviceMembers dev next) next :=
      .element blanks (device_reads (good dev List.mem_cons_self) (digits dev List.mem_cons_self))
    cases devs with
    | nil =>
      have last : Reads number 0xFFFD (levels + 1) (.member false [] (deviceTree dev))
          ((before ++ [32, 32]) ++ 123 :: deviceMembers dev (10 :: 93 :: rest))
          ([10] ++ closing false :: rest) := here _
      rw [printEach_last, blanks_split]
      exact .last last newline
    | cons second devs =>
      have later := ih (by simp) newline (fun dev inside => good dev (List.mem_cons_of_mem _ inside))
        fun dev inside => digits dev (List.mem_cons_of_mem _ inside)
      rw [printEach_more, blanks_split]
      generalize [10] ++ (printEach (second :: devs) ++ 93 :: rest) = next at later ⊢
      have first : Reads number 0xFFFD (levels + 1) (.member false [] (deviceTree dev))
          ((before ++ [32, 32]) ++ 123 :: deviceMembers dev (44 :: next)) ([] ++ 44 :: next) := here _
      exact .more first ws_nil later

theorem printed_shape (devs : List RufuxDevice) :
    rufuxPrintDevicesJson devs =
      [] ++ opening false :: ([10] ++ (printEach devs ++ 93 :: [10])) := by
  have front : ascii "[\n" = [91, 10] := rfl
  have back : ascii "]\n" = [93, 10] := rfl
  rw [rufuxPrintDevicesJson, front, back]
  rfl

theorem list_reads {devs : List RufuxDevice} (good : ∀ dev ∈ devs, Printable dev)
    (digits : ∀ dev ∈ devs, ∀ left, number (printNumber dev.sizeBytes) (44 :: 34 :: left)) :
    Whole number 0xFFFD (levels + 2) (rufuxPrintDevicesJson devs) (listTree devs) := by
  have newline : Ws [10] := by simp [Ws, isWs]
  have array : Reads number 0xFFFD (levels + 2) (.value (listTree devs))
      (opening false :: ([10] ++ (printEach devs ++ 93 :: [10]))) [10] := by
    cases devs with
    | nil =>
      have empty : Reads number 0xFFFD (levels + 2) (.value (.node false []))
          (opening false :: ([10] ++ closing false :: [10])) [10] := .empty newline
      exact empty
    | cons dev devs => exact .node (each_reads (by simp) newline good digits)
  exact ⟨[], _, [10], .inl (printed_shape devs), ws_nil, array, newline⟩

end Reads

/-! ### What is read back -/

section ReadBack

variable {levels : Nat} {locale : Locale} {rounds : Nat} {before rest after : List UInt8}
  {members : List (List UInt8 × Json)}

theorem parseValue_blanks {point text other : List UInt8} (levels : Nat)
    (same : skipWs text = skipWs other) :
    parseValue point levels text = parseValue point levels other := by
  cases levels with
  | zero => rfl
  | succ levels => rw [parseValue, parseValue, same]

/-- An element of an array is read from behind the white space before it. -/
theorem element_read {dev : RufuxDevice} {next : List UInt8} (ws : Ws before)
    (parsed : parseMembers (parseValue locale.pointBytes (levels + 2)) false rounds
      (before ++ (printDevice dev ++ next)) = .ok (members, after)) :
    ∃ kid left more, parseValue locale.pointBytes (levels + 2) (printDevice dev ++ next) =
        .ok (kid, left) ∧ members = ([], kid) :: more ∧
      ∀ tail, skipWs left = 44 :: tail → ∃ rounds,
        parseMembers (parseValue locale.pointBytes (levels + 2)) false rounds tail =
          .ok (more, after) := by
  cases rounds with
  | zero => cases parsed
  | succ rounds =>
    have blanks : skipWs (skipWs (before ++ (printDevice dev ++ next))) =
        skipWs (printDevice dev ++ next) := by
      rw [skipWs_skipWs, skipWs_append ws]
    have name (text : List UInt8) : memberName false text = .ok ([], text) := rfl
    rw [parseMembers, name] at parsed
    dsimp only at parsed
    rw [parseValue_blanks _ blanks] at parsed
    split at parsed
    · cases parsed
    · rename_i kid left value
      split at parsed
      · cases parsed
      · rename_i char tail follows
        split at parsed
        · obtain ⟨⟨more, rest'⟩, later, pair⟩ := map_eq_ok.mp parsed
          obtain ⟨rfl, rfl⟩ := Prod.mk.inj pair
          refine ⟨kid, left, more, value, rfl, fun other comma => ⟨rounds, ?_⟩⟩
          rw [← (List.cons.inj (follows.symm.trans comma)).2]
          exact later
        · rename_i other
          split at parsed
          · obtain ⟨rfl, rfl⟩ := Prod.mk.inj (Except.ok.inj parsed)
            refine ⟨kid, left, [], value, rfl, fun _ comma => ?_⟩
            exact absurd (List.cons.inj (follows.symm.trans comma)).1 other
          · cases parsed

/-- Where the devices are read with their own fields, each of them is printable. -/
theorem each_read {devs : List RufuxDevice} (ws : Ws before)
    (parsed : parseMembers (parseValue locale.pointBytes (levels + 2)) false rounds
      (before ++ (printEach devs ++ rest)) = .ok (members, after))
    (same : List.Forall₂ SameFields (members.map Prod.snd) devs) :
    ∀ dev ∈ devs, locale.point ≠ ',' ∧ Printable dev := by
  induction devs generalizing before rounds members with
  | nil => exact fun dev inside => absurd inside (by simp)
  | cons dev devs ih =>
    cases devs with
    | nil =>
      rw [printEach_last, ← printDevice_shape] at parsed
      obtain ⟨kid, left, more, value, rfl, -⟩ := element_read ws parsed
      have fields := (List.forall₂_cons.mp same).1
      obtain ⟨comma, good, -⟩ := device_read value fields
      intro other inside
      rw [List.mem_singleton.mp inside]
      exact ⟨comma, good⟩
    | cons second devs =>
      rw [printEach_more, ← printDevice_shape] at parsed
      obtain ⟨kid, left, more, value, rfl, later⟩ := element_read ws parsed
      obtain ⟨fields, others⟩ := List.forall₂_cons.mp same
      obtain ⟨comma, good, rfl⟩ := device_read value fields
      obtain ⟨rounds, parsed'⟩ := later _ (skipWs_visible (by decide))
      have newline : Ws [10] := by simp [Ws, isWs]
      intro other inside
      rcases List.mem_cons.mp inside with rfl | inside
      · exact ⟨comma, good⟩
      · exact ih newline parsed' others other inside

end ReadBack

/-! ### UTF-8 -/

section Encoding

variable {byte : UInt8} {front back text : List UInt8}

theorem utf8_join (ascii : byte.toNat < 128) : Utf8 (front ++ byte :: back) ↔ Utf8 front ∧ Utf8 back := by
  constructor
  · rintro ⟨chars, same⟩
    obtain ⟨before, after, first, second⟩ := utf8_split ascii same
    exact ⟨⟨before, first⟩, after, second⟩
  · rintro ⟨⟨before, rfl⟩, after, rfl⟩
    obtain ⟨middle, same⟩ := @utf8_of_ascii [byte] (by simpa using ascii)
    refine ⟨before ++ middle ++ after, ?_⟩
    have whole : utf8 (before ++ middle ++ after) = utf8 before ++ byte :: utf8 after := by
      rw [utf8_append, utf8_append, ← same, List.append_assoc]
      rfl
    exact whole.symm

theorem utf8_push (ascii : byte.toNat < 128) : Utf8 (byte :: back) ↔ Utf8 back := by
  have join := @utf8_join byte [] back ascii
  have empty : Utf8 [] := ⟨[], rfl⟩
  rw [List.nil_append] at join
  exact join.trans (and_iff_right empty)

theorem utf8_digits (digits : Digits front) : Utf8 front :=
  utf8_of_ascii fun byte inside => by
    have range := numberStart (.inr (digits byte inside))
    omega

/-- An escape puts an ASCII byte before another. -/
theorem utf8_escape : Utf8 (jsonEscape text) ↔ Utf8 text := by
  have each (front : List UInt8) : Utf8 (front ++ jsonEscape text) ↔ Utf8 (front ++ text) := by
    induction text generalizing front with
    | nil => rfl
    | cons char text ih =>
      unfold jsonEscape
      split
      · rename_i special
        have ascii : char.toNat < 128 := by
          rcases special with rfl | rfl <;> decide
        have later := ih []
        rw [List.nil_append, List.nil_append] at later
        rw [utf8_join (by decide), utf8_push ascii, utf8_join ascii, later]
      · have later := ih (front ++ [char])
        rw [List.append_assoc, List.append_assoc] at later
        exact later
  exact each []

theorem utf8_member (key : String) (ascii : ∀ byte ∈ ascii key, byte.toNat < 128) :
    Utf8 (member key text) ↔ Utf8 text := by
  have name : Utf8 (Linux.ascii key) := utf8_of_ascii ascii
  rw [member, utf8_push (by decide), utf8_join (by decide), utf8_push (by decide)]
  exact and_iff_right name

theorem utf8_bool (value : Bool) : Utf8 (printBool value) := by
  cases value with
  | false => exact utf8_of_ascii (by decide +kernel)
  | true => exact utf8_of_ascii (by decide +kernel)

/-- The fields of the device are UTF-8. -/
structure Encoded (dev : RufuxDevice) : Prop where
  node : Utf8 dev.devnode.bytes
  sys : Utf8 dev.sysname.bytes
  transport : Utf8 dev.transport.bytes
  vendor : Utf8 dev.vendor.bytes
  model : Utf8 dev.model.bytes
  serial : Utf8 dev.serial.bytes

theorem utf8_device {dev : RufuxDevice} : Utf8 (printDevice dev ++ back) ↔ Encoded dev ∧ Utf8 back := by
  have size : Utf8 (printNumber dev.sizeBytes) :=
    utf8_digits (printNumber_whole dev.sizeBytes).all_digits.1
  rw [printDevice_shape, utf8_push (by decide), utf8_push (by decide), utf8_push (by decide)]
  unfold deviceMembers textMembers
  rw [utf8_member "node" (by decide +kernel), utf8_push (by decide), utf8_join (by decide),
    utf8_push (by decide), utf8_member "sys" (by decide +kernel), utf8_push (by decide),
    utf8_join (by decide), utf8_push (by decide), utf8_member "size_bytes" (by decide +kernel),
    utf8_join (by decide), utf8_member "removable" (by decide +kernel), utf8_join (by decide),
    utf8_member "usb" (by decide +kernel), utf8_join (by decide), utf8_member "mounted" (by decide +kernel),
    utf8_join (by decide), utf8_member "transport" (by decide +kernel), utf8_push (by decide),
    utf8_join (by decide), utf8_push (by decide), utf8_member "vendor" (by decide +kernel),
    utf8_push (by decide), utf8_join (by decide), utf8_push (by decide),
    utf8_member "model" (by decide +kernel), utf8_push (by decide), utf8_join (by decide),
    utf8_push (by decide), utf8_member "serial" (by decide +kernel), utf8_push (by decide),
    utf8_join (by decide), utf8_push (by decide), utf8_escape, utf8_escape, utf8_escape]
  constructor
  · rintro ⟨node, sys, -, -, -, -, transport, vendor, model, serial, rest⟩
    exact ⟨⟨node, sys, transport, vendor, model, serial⟩, rest⟩
  · rintro ⟨⟨node, sys, transport, vendor, model, serial⟩, rest⟩
    exact ⟨node, sys, size, utf8_bool _, utf8_bool _, utf8_bool _, transport, vendor, model, serial,
      rest⟩

theorem utf8_each {devs : List RufuxDevice} :
    Utf8 (printEach devs ++ back) ↔ (∀ dev ∈ devs, Encoded dev) ∧ Utf8 back := by
  induction devs with
  | nil => simp [printEach]
  | cons dev devs ih =>
    cases devs with
    | nil =>
      rw [printEach_last, ← printDevice_shape, utf8_device, utf8_push (by decide)]
      simp
    | cons second devs =>
      rw [printEach_more, ← printDevice_shape, utf8_device, utf8_push (by decide),
        List.singleton_append, utf8_push (by decide), ih]
      simp [and_assoc]

theorem utf8_printed {devs : List RufuxDevice} :
    Utf8 (rufuxPrintDevicesJson devs) ↔ ∀ dev ∈ devs, Encoded dev := by
  have ends : Utf8 [93, 10] := utf8_of_ascii (by decide +kernel)
  rw [printed_shape, List.nil_append, utf8_push (by decide), List.singleton_append,
    utf8_push (by decide), utf8_each]
  exact and_iff_left ends

end Encoding

/-! ### The text as a document -/

theorem printDevice_nulFree (dev : RufuxDevice) : (0 : UInt8) ∉ printDevice dev := by
  have escaped {text : List UInt8} (free : (0 : UInt8) ∉ text) : (0 : UInt8) ∉ jsonEscape text := by
    induction text with
    | nil => simp [jsonEscape]
    | cons char text ih =>
      obtain ⟨other, later⟩ := not_or.mp fun member => free (List.mem_cons.mpr member)
      unfold jsonEscape
      split
      · simp [other, ih later]
      · simp [other, ih later]
  have digits : (0 : UInt8) ∉ printNumber dev.sizeBytes := fun inside =>
    absurd ((printNumber_whole dev.sizeBytes).all_digits.1 0 inside) (by decide)
  have bools (value : Bool) : (0 : UInt8) ∉ printBool value := by
    cases value with
    | false => decide
    | true => decide
  have literals : ∀ text ∈ ["  \x7b\"node\":\"", "\",\"sys\":\"", "\",\"size_bytes\":",
      ",\"removable\":", ",\"usb\":", ",\"mounted\":", ",\"transport\":\"", "\",\"vendor\":\"",
      "\",\"model\":\"", "\",\"serial\":\"", "\"\x7d"], (0 : UInt8) ∉ ascii text := by
    decide +kernel
  unfold printDevice
  simp only [List.mem_append, not_or]
  refine ⟨?_, literals _ (by simp)⟩
  refine ⟨⟨?_, literals _ (by simp)⟩, escaped dev.serial.nulFree⟩
  refine ⟨⟨?_, literals _ (by simp)⟩, escaped dev.model.nulFree⟩
  refine ⟨⟨?_, literals _ (by simp)⟩, escaped dev.vendor.nulFree⟩
  refine ⟨⟨?_, literals _ (by simp)⟩, dev.transport.nulFree⟩
  refine ⟨⟨?_, literals _ (by simp)⟩, bools dev.mounted⟩
  refine ⟨⟨?_, literals _ (by simp)⟩, bools dev.isUsb⟩
  refine ⟨⟨?_, literals _ (by simp)⟩, bools dev.removable⟩
  refine ⟨⟨?_, literals _ (by simp)⟩, digits⟩
  refine ⟨⟨?_, literals _ (by simp)⟩, dev.sysname.nulFree⟩
  exact ⟨literals _ (by simp), dev.devnode.nulFree⟩

theorem printed_nulFree (devs : List RufuxDevice) : (0 : UInt8) ∉ rufuxPrintDevicesJson devs := by
  have each : (0 : UInt8) ∉ printEach devs := by
    induction devs with
    | nil => simp [printEach]
    | cons dev devs ih =>
      have newline : ascii "\n" = [10] := rfl
      have comma : (0 : UInt8) ∉ ascii "," := by decide +kernel
      rw [printEach, newline]
      simp [printDevice_nulFree dev, comma, ih]
  rw [printed_shape]
  simp [opening, each]

/-- The text that is printed, as the reader is given it. -/
def printed (devs : List RufuxDevice) : Document := ⟨rufuxPrintDevicesJson devs, printed_nulFree devs⟩

/-- How long a text is with a backslash before each quotation mark and each backslash. -/
def escapedSize (text : List UInt8) : Nat :=
  text.length + text.countP fun char => char = 34 ∨ char = 92

def boolSize (value : Bool) : Nat := if value then 4 else 5

def deviceSize (dev : RufuxDevice) : Nat :=
  117 + dev.devnode.bytes.length + dev.sysname.bytes.length +
    (Nat.toDigits 10 dev.sizeBytes.toNat).length + boolSize dev.removable + boolSize dev.isUsb +
    boolSize dev.mounted + dev.transport.bytes.length + escapedSize dev.vendor.bytes +
    escapedSize dev.model.bytes + escapedSize dev.serial.bytes

/-- How long the text of the devices is. -/
def textSize (devs : List RufuxDevice) : Nat :=
  4 + (devs.map fun dev => deviceSize dev + 1).sum + (devs.length - 1)

theorem jsonEscape_length (text : List UInt8) : (jsonEscape text).length = escapedSize text := by
  unfold escapedSize
  induction text with
  | nil => rfl
  | cons char text ih =>
    unfold jsonEscape
    split
    · rename_i special
      rw [List.countP_cons_of_pos (by simpa using special)]
      simp only [List.length_cons, ih]
      omega
    · rename_i ordinary
      rw [List.countP_cons_of_neg (by simpa using ordinary)]
      simp only [List.length_cons, ih]
      omega

theorem printBool_length (value : Bool) : (printBool value).length = boolSize value := by
  cases value with
  | false => rfl
  | true => rfl

theorem printDevice_length (dev : RufuxDevice) : (printDevice dev).length = deviceSize dev := by
  have node : (ascii "  \x7b\"node\":\"").length = 11 := rfl
  have sys : (ascii "\",\"sys\":\"").length = 9 := rfl
  have size : (ascii "\",\"size_bytes\":").length = 15 := rfl
  have removable : (ascii ",\"removable\":").length = 13 := rfl
  have usb : (ascii ",\"usb\":").length = 7 := rfl
  have mounted : (ascii ",\"mounted\":").length = 11 := rfl
  have transport : (ascii ",\"transport\":\"").length = 14 := rfl
  have vendor : (ascii "\",\"vendor\":\"").length = 12 := rfl
  have model : (ascii "\",\"model\":\"").length = 11 := rfl
  have serial : (ascii "\",\"serial\":\"").length = 12 := rfl
  have close : (ascii "\"\x7d").length = 2 := rfl
  have digits : (printNumber dev.sizeBytes).length =
      (Nat.toDigits 10 dev.sizeBytes.toNat).length := List.length_map _
  unfold printDevice deviceSize
  simp only [List.length_append, jsonEscape_length, printBool_length, digits]
  omega

theorem printEach_length (devs : List RufuxDevice) :
    (printEach devs).length = (devs.map fun dev => deviceSize dev + 1).sum + (devs.length - 1) := by
  have newline : (ascii "\n").length = 1 := rfl
  have comma : (ascii ",").length = 1 := rfl
  induction devs with
  | nil => rfl
  | cons dev devs ih =>
    rw [printEach]
    simp only [List.length_append, printDevice_length, ih, newline, List.map_cons, List.sum_cons,
      List.length_cons]
    cases devs with
    | nil => simp
    | cons second devs =>
      simp only [List.isEmpty_cons, Bool.false_eq_true, if_false, comma, List.length_cons]
      omega

theorem printed_length (devs : List RufuxDevice) : (printed devs).bytes.length = textSize devs := by
  have shape : (printed devs).bytes = [] ++ opening false :: ([10] ++ (printEach devs ++ 93 :: [10])) :=
    printed_shape devs
  rw [shape]
  unfold textSize
  simp only [List.length_append, List.length_cons, List.length_nil, printEach_length]
  omega

/-! ### The round trip -/

/-- The elements of an array, as `mj_at` counts them. -/
def mjElements : Json → List Json
  | .node _ members => members.map Prod.snd
  | _ => []

/-- The text is JSON, and the reader makes of it the same fields for every device, in order. -/
def RoundTrip (locale : Locale) (devs : List RufuxDevice) : Prop :=
  ∃ tree, IsJson 0xFFFD mjMaxDepth (printed devs).bytes tree ∧
    mjParse locale.pointBytes (printed devs) = .ok tree ∧
    List.Forall₂ SameFields (mjElements tree) devs

theorem deviceTree_fields {dev : RufuxDevice} (good : Printable dev) :
    SameFields (deviceTree dev) dev := by
  have number : mjGet (deviceTree dev) "size_bytes" = some (.num (printNumber dev.sizeBytes)) := rfl
  have size : mjNum (mjGet (deviceTree dev) "size_bytes") = some dev.sizeBytes.toNat := by
    rw [number, mjNum_printNumber, nearestDouble_exact.mpr good.size]
  exact ⟨rfl, rfl, size, rfl, rfl, rfl, rfl, rfl, rfl, rfl⟩

theorem printed_read {locale : Locale} {devs : List RufuxDevice} {tree : Json}
    (parsed : mjParse locale.pointBytes (printed devs) = .ok tree)
    (same : List.Forall₂ SameFields (mjElements tree) devs) :
    ∀ dev ∈ devs, locale.point ≠ ',' ∧ Printable dev := by
  have newline : Ws [10] := by simp [Ws, isWs]
  have bytes : (printed devs).bytes =
      opening false :: ([10] ++ (printEach devs ++ 93 :: [10])) := printed_shape devs
  have unmarked : byteOrderMark.isPrefixOf (printed devs).bytes = false := by
    rw [bytes]
    rfl
  unfold mjParse at parsed
  split at parsed
  · cases parsed
  · dsimp only at parsed
    rw [unmarked, if_neg (by decide), bytes] at parsed
    split at parsed
    · cases parsed
    · rename_i whole rest inner
      split at parsed
      · obtain rfl := Except.ok.inj parsed
        have bracket : skipWs (opening false :: ([10] ++ (printEach devs ++ 93 :: [10]))) =
            91 :: ([10] ++ (printEach devs ++ 93 :: [10])) := skipWs_visible (by decide)
        rw [parseValue, bracket] at inner
        dsimp only at inner
        rw [if_pos (.inr rfl)] at inner
        unfold parseContainer at inner
        split at inner
        · obtain ⟨rfl, -⟩ := Prod.mk.inj (Except.ok.inj inner)
          cases same
          exact fun dev inside => absurd inside (by simp)
        · obtain ⟨⟨members, left⟩, elements, pair⟩ := map_eq_ok.mp inner
          obtain ⟨rfl, rfl⟩ := Prod.mk.inj pair
          rw [parseMembers_skipWs] at elements
          exact each_read newline elements same
      · cases parsed

/-! ### What is listed -/

theorem sanitized_visible (locale : Locale) (text : Document) :
    Visible (locale.sanitized text).bytes := by
  intro byte inside
  obtain ⟨other, _, rfl⟩ := List.mem_map.mp inside
  exact locale.blank_visible other

theorem transport_plain (sys : Sysfs) (name : Document) (removable : Bool) :
    Plain (snprintf 32 (sys.detectTransport name removable)).bytes ∧
      Utf8 (snprintf 32 (sys.detectTransport name removable)).bytes := by
  have each : ∀ text ∈ ["nvme", "mmc", "virt", "usb", "sata", "unknown"],
      Plain (snprintf 32 (ascii text)).bytes ∧
        ∀ byte ∈ (snprintf 32 (ascii text)).bytes, byte.toNat < 128 := by
    decide +kernel
  obtain ⟨text, listed, same⟩ : ∃ text ∈ ["nvme", "mmc", "virt", "usb", "sata", "unknown"],
      sys.detectTransport name removable = ascii text := by
    unfold Sysfs.detectTransport
    have otherwise : ∃ text ∈ ["nvme", "mmc", "virt", "usb", "sata", "unknown"],
        (if removable then ascii "usb" else ascii "unknown") = ascii text := by
      cases removable with
      | false => exact ⟨"unknown", by simp, rfl⟩
      | true => exact ⟨"usb", by simp, rfl⟩
    dsimp only
    split
    · exact ⟨"nvme", by simp, rfl⟩
    · split
      · exact ⟨"mmc", by simp, rfl⟩
      · split
        · exact ⟨"virt", by simp, rfl⟩
        · split
          · exact otherwise
          · split
            · exact ⟨"usb", by simp, rfl⟩
            · split
              · exact ⟨"sata", by simp, rfl⟩
              · exact otherwise
  rw [same]
  exact ⟨(each text listed).1, utf8_of_ascii (each text listed).2⟩

theorem listed_visible {locale : Locale} {sys : Sysfs} {max : Nat} {includeFixed : Bool}
    {listed : List RufuxDevice}
    (found : rufuxListDevices locale sys max includeFixed = some listed) {dev : RufuxDevice}
    (inside : dev ∈ listed) : Visible dev.vendor.bytes ∧ Visible dev.model.bytes ∧
      Plain dev.transport.bytes ∧ Utf8 dev.transport.bytes := by
  unfold rufuxListDevices at found
  obtain ⟨names, _, rfl⟩ := Option.map_eq_some_iff.mp found
  obtain ⟨name, _, shown⟩ := List.mem_filterMap.mp (List.mem_of_mem_take inside)
  unfold listDevice at shown
  split at shown
  · cases shown
  · split at shown
    · cases shown
    · dsimp only at shown
      split at shown
      · cases shown
      · split at shown
        · cases shown
        · obtain rfl := Option.some.inj shown
          exact ⟨sanitized_visible locale _, sanitized_visible locale _,
            transport_plain sys name _⟩

/-- The text that is printed of the devices is JSON, and is read back with their fields, exactly
where every name is plain, no other text holds a control character, all of them are UTF-8, every
size is a double, and the text is no longer than the reader takes, in a locale whose decimal point
is no comma. What is listed has no control character but in a name or a serial number. -/
theorem device_list_iff (locale : Locale) (devs : List RufuxDevice) :
    (RoundTrip locale devs ↔ textSize devs ≤ mjMaxText ∧
      ∀ dev ∈ devs, locale.point ≠ ',' ∧ Printable dev ∧ Encoded dev) ∧
    ∀ sys max includeFixed listed, rufuxListDevices locale sys max includeFixed = some listed →
      ∀ dev ∈ listed, Visible dev.vendor.bytes ∧ Visible dev.model.bytes ∧
        Plain dev.transport.bytes ∧ Utf8 dev.transport.bytes := by
  refine ⟨⟨?_, ?_⟩, ?_⟩
  · rintro ⟨tree, ⟨utf8, -⟩, parsed, same⟩
    have size := (mjParse_eq_ok.mp parsed).1
    rw [printed_length] at size
    have encoded := utf8_printed.mp utf8
    have good := printed_read parsed same
    exact ⟨size, fun dev inside => ⟨(good dev inside).1, (good dev inside).2, encoded dev inside⟩⟩
  · rintro ⟨size, good⟩
    have printable (dev : RufuxDevice) (inside : dev ∈ devs) : Printable dev := (good dev inside).2.1
    refine ⟨listTree devs, ⟨utf8_printed.mpr fun dev inside => (good dev inside).2.2, ?_⟩, ?_, ?_⟩
    · exact list_reads printable fun dev _ _ => printNumber_number dev.sizeBytes
    · refine mjParse_eq_ok.mpr ⟨by rw [printed_length]; exact size, ?_⟩
      refine list_reads printable fun dev inside left => ⟨?_, ?_⟩
      · obtain ⟨digits, some_digits⟩ := (printNumber_whole dev.sizeBytes).all_digits
        obtain ⟨first, others, shape⟩ := List.exists_cons_of_ne_nil some_digits
        exact ⟨first, others, shape, .inr (digits first (by rw [shape]; exact List.mem_cons_self))⟩
      · have comma := (good dev inside).1
        rw [strtodLen_comma (printNumber_whole dev.sizeBytes) (pointBytes_begins locale (34 :: left)),
          if_neg fun same => comma ((pointBytes_comma locale).mp same), Nat.add_zero]
    · have elements : mjElements (listTree devs) = devs.map deviceTree := by
        simp [mjElements, listTree, Function.comp_def]
      rw [elements, List.forall₂_map_left_iff, List.forall₂_same]
      exact fun dev inside => deviceTree_fields (printable dev inside)
  · intro sys max includeFixed listed found dev inside
    exact listed_visible found inside

theorem printable_visible (byte : UInt8) (printable : (32 ≤ byte && byte ≤ 126) = true) :
    32 ≤ byte := by
  simp only [Bool.and_eq_true, decide_eq_true_eq] at printable
  exact printable.1

/-- The locale of a program that sets none. -/
def plainLocale : Locale where
  point := '.'
  isPrint byte := 32 ≤ byte && byte ≤ 126
  visible := printable_visible

/-- A system with one stick, whose serial number has a tab in it. -/
def tabSysfs : Sysfs where
  block := some [cString (ascii "sda")]
  file path :=
    if path.bytes = ascii "/sys/block/sda/removable" then some (ascii "1\n")
    else if path.bytes = ascii "/sys/block/sda/device/vendor" then some (ascii "Stick\n")
    else if path.bytes = ascii "/sys/block/sda/device/serial" then some (ascii "A\tB\n")
    else none
  link _ := none
  nodeSize _ := some 1024
  mounts := none

def tabDevice : RufuxDevice where
  sysname := cString (ascii "sda")
  devnode := cString (ascii "/dev/sda")
  vendor := cString (ascii "Stick")
  model := cString []
  serial := cString (ascii "A\tB")
  transport := cString (ascii "usb")
  sizeBytes := 1024
  removable := true
  isUsb := false
  mounted := false

theorem tabDevice_listed : rufuxListDevices plainLocale tabSysfs 128 false = some [tabDevice] := by
  rfl

/-- The text of a device whose serial number has a tab is not read back. -/
theorem tabDevice_unread : ¬∀ sys devs, rufuxListDevices plainLocale sys 128 false = some devs →
    (∀ dev ∈ devs, Encoded dev) → RoundTrip plainLocale devs := by
  intro trip
  have encoded : Encoded tabDevice :=
    ⟨utf8_of_ascii (by decide +kernel), utf8_of_ascii (by decide +kernel),
      utf8_of_ascii (by decide +kernel), utf8_of_ascii (by decide +kernel),
      utf8_of_ascii (by decide +kernel), utf8_of_ascii (by decide +kernel)⟩
  obtain ⟨tree, -, parsed, same⟩ := trip tabSysfs [tabDevice] tabDevice_listed fun dev inside => by
    rw [List.mem_singleton.mp inside]
    exact encoded
  have visible := (printed_read parsed same tabDevice List.mem_cons_self).2.serial
  exact absurd (visible 9 (by decide +kernel)) (by decide)

end Rufux.Linux
