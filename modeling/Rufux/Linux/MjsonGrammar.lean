import Rufux.Linux.Mjson

/-!
The JSON reader against the grammar. What it accepts is the grammar with the numbers that
`strtod` takes, so it accepts exactly JSON where those are the numbers of JSON.
-/

namespace Rufux.Linux

open Library Json

/-! ### Strings -/

theorem hexDigit_lt {char : UInt8} {value : Nat} (digit : hexDigit char = some value) :
    value < 16 := by
  unfold hexDigit at digit
  split at digit
  · rename_i range
    obtain ⟨low, high⟩ := range
    have bound : char.toNat ≤ 57 := high
    obtain rfl := Option.some.inj digit
    omega
  · split at digit
    · rename_i range
      obtain ⟨low, high⟩ := range
      have bound : char.toNat ≤ 102 := high
      obtain rfl := Option.some.inj digit
      omega
    · split at digit
      · rename_i range
        obtain ⟨low, high⟩ := range
        have bound : char.toNat ≤ 70 := high
        obtain rfl := Option.some.inj digit
        omega
      · nomatch digit

theorem pushDigit {value digit : Nat} (small : digit < 16) :
    value <<< 4 ||| digit = value * 16 + digit := by
  rw [← Nat.shiftLeft_add_eq_or_of_lt (by omega) value, Nat.shiftLeft_eq]

theorem hex4_eq_some {text : List UInt8} {unit : Nat} :
    hex4 text = some unit ↔ ∃ a b c d w x y z rest, text = a :: b :: c :: d :: rest ∧
      hexDigit a = some w ∧ hexDigit b = some x ∧ hexDigit c = some y ∧ hexDigit d = some z ∧
      unit = ((w * 16 + x) * 16 + y) * 16 + z := by
  constructor
  · intro read
    unfold hex4 at read
    split at read
    · rename_i a b c d rest
      simp only [List.foldlM_cons, List.foldlM_nil, bind, pure, Option.bind_eq_some_iff,
        Option.map_eq_some_iff] at read
      obtain ⟨_, ⟨w, first, rfl⟩, _, ⟨x, second, rfl⟩, _, ⟨y, third, rfl⟩, _,
        ⟨z, fourth, rfl⟩, same⟩ := read
      obtain rfl := Option.some.inj same
      refine ⟨a, b, c, d, w, x, y, z, rest, rfl, first, second, third, fourth, ?_⟩
      rw [pushDigit (hexDigit_lt fourth), pushDigit (hexDigit_lt third),
        pushDigit (hexDigit_lt second), pushDigit (hexDigit_lt first)]
      omega
    · cases read
  · rintro ⟨a, b, c, d, w, x, y, z, rest, rfl, first, second, third, fourth, rfl⟩
    simp only [hex4, List.foldlM_cons, List.foldlM_nil, bind, pure, first, second, third, fourth,
      Option.map_some, Option.bind_some, pushDigit (hexDigit_lt first),
      pushDigit (hexDigit_lt second), pushDigit (hexDigit_lt third), pushDigit (hexDigit_lt fourth)]
    simp

theorem hex4_lt {text : List UInt8} {unit : Nat} (read : hex4 text = some unit) :
    unit < 0x10000 := by
  obtain ⟨a, b, c, d, w, x, y, z, rest, -, first, second, third, fourth, rfl⟩ :=
    hex4_eq_some.mp read
  have := hexDigit_lt first
  have := hexDigit_lt second
  have := hexDigit_lt third
  have := hexDigit_lt fourth
  omega

theorem tailByte (cp : Nat) : (0x80 ||| cp &&& 0x3F) = 0x80 + cp % 64 := by
  have masked : cp &&& 0x3F = cp % 64 := Nat.and_two_pow_sub_one_eq_mod cp 6
  have small : cp % 64 < 2 ^ 6 := Nat.mod_lt _ (by decide)
  rw [masked, show (0x80 : Nat) = 2 <<< 6 from rfl, ← Nat.shiftLeft_add_eq_or_of_lt small]

theorem putUtf8_eq {cp : Nat} (point : cp < 0x110000) : putUtf8 cp = encodePoint cp := by
  have lead2 : cp < 0x800 → (0xC0 ||| cp >>> 6) = 0xC0 + cp / 64 := fun short => by
    rw [show (0xC0 : Nat) = 6 <<< 5 from rfl, Nat.shiftRight_eq_div_pow,
      ← Nat.shiftLeft_add_eq_or_of_lt (by omega)]
  have lead3 : cp < 0x10000 → (0xE0 ||| cp >>> 12) = 0xE0 + cp / 4096 := fun short => by
    rw [show (0xE0 : Nat) = 14 <<< 4 from rfl, Nat.shiftRight_eq_div_pow,
      ← Nat.shiftLeft_add_eq_or_of_lt (by omega)]
  have lead4 : (0xF0 ||| cp >>> 18) = 0xF0 + cp / 262144 := by
    rw [show (0xF0 : Nat) = 30 <<< 3 from rfl, Nat.shiftRight_eq_div_pow,
      ← Nat.shiftLeft_add_eq_or_of_lt (by omega)]
  unfold putUtf8 encodePoint
  split
  · rfl
  · split
    · rename_i short
      rw [lead2 short, tailByte]
    · split
      · rename_i short
        rw [lead3 short, tailByte, tailByte, Nat.shiftRight_eq_div_pow]
      · rw [lead4, tailByte, tailByte, tailByte, Nat.shiftRight_eq_div_pow,
          Nat.shiftRight_eq_div_pow]

theorem plainEscape_eq_some {letter byte : UInt8} :
    plainEscape letter = some byte ↔ (letter, byte) ∈ escapes := by
  simp only [plainEscape, escapes, List.mem_cons, Prod.mk.injEq, List.not_mem_nil, or_false]
  constructor
  · intro known
    repeat' split at known
    all_goals simp_all
  · rintro (⟨rfl, rfl⟩ | ⟨rfl, rfl⟩ | ⟨rfl, rfl⟩ | ⟨rfl, rfl⟩ | ⟨rfl, rfl⟩ | ⟨rfl, rfl⟩ | ⟨rfl, rfl⟩ |
      ⟨rfl, rfl⟩) <;> rfl

theorem pairPoint_eq {high low : Nat} :
    pairPoint high low = 0x10000 + ((high - 0xD800) <<< 10) + (low - 0xDC00) := by
  have shifted (unit : Nat) : unit * 0x400 = unit <<< 10 := (Nat.shiftLeft_eq unit 10).symm
  exact congrArg (fun unit => 0x10000 + unit + (low - 0xDC00)) (shifted (high - 0xD800))

/-- A `\u` escape that ends a surrogate pair begins what follows. -/
theorem pairAfter_eq_some {cp point : Nat} {text : List UInt8} :
    pairAfter cp text = some point ↔ ∃ low rest, IsHigh cp ∧ IsLow low ∧ text = 92 :: 117 :: rest ∧
      hex4 rest = some low ∧ point = pairPoint cp low := by
  unfold pairAfter
  constructor
  · intro paired
    split at paired
    · rename_i start
      obtain ⟨first, last, marks⟩ := start
      obtain ⟨rest, rfl⟩ : ∃ rest, text = 92 :: 117 :: rest := by
        have halves := List.take_append_drop 2 text
        rw [marks] at halves
        exact ⟨text.drop 2, halves.symm⟩
      split at paired
      · rename_i low read
        split at paired
        · rename_i range
          obtain rfl := Option.some.inj paired
          exact ⟨low, rest, ⟨first, last⟩, range, rfl, read, pairPoint_eq.symm⟩
        · cases paired
      · cases paired
    · cases paired
  · rintro ⟨low, rest, ⟨first, last⟩, ⟨bottom, top⟩, rfl, read, same⟩
    have marks : (92 :: 117 :: rest).take 2 = [92, 117] := rfl
    rw [if_pos ⟨first, last, marks⟩]
    simp only [List.drop_succ_cons, List.drop_zero, read]
    rw [if_pos ⟨bottom, top⟩, same, pairPoint_eq]

theorem pairPoint_lt {high low : Nat} (first : IsHigh high) (second : IsLow low) :
    pairPoint high low < 0x110000 := by
  obtain ⟨_, upper⟩ := first
  obtain ⟨_, _⟩ := second
  unfold pairPoint
  omega

theorem decode_byte {nul : Nat} {byte : UInt8} {parts : List Part} :
    decode nul (.byte byte :: parts) = byte :: decode nul parts := by
  rw [decode]

theorem decode_pair {nul high low : Nat} {parts : List Part} (first : IsHigh high)
    (second : IsLow low) : decode nul (.unit high :: .unit low :: parts) =
      encodePoint (pairPoint high low) ++ decode nul parts := by
  rw [decode, if_pos first]
  simp only [lowFirst, if_pos second, List.tail_cons]

theorem decode_unit {nul unit : Nat} {parts : List Part}
    (alone : IsHigh unit → lowFirst parts = none) : decode nul (.unit unit :: parts) =
      encodePoint (if unit = 0 then nul else unit) ++ decode nul parts := by
  rw [decode]
  split
  · rename_i high
    have some_unit : unit ≠ 0 := by
      obtain ⟨bottom, _⟩ := high
      omega
    rw [alone high, if_neg some_unit]
  · rfl

theorem letter_ne {letter byte : UInt8} (listed : (letter, byte) ∈ escapes) : letter ≠ 117 := by
  rintro rfl
  have known := plainEscape_eq_some.mpr listed
  nomatch known

/-- The escape that follows a first half is its second half where the characters have one. -/
theorem pairAfter_chars {cp : Nat} (high : IsHigh cp) {body rest : List UInt8} {parts : List Part}
    (chars : Chars body parts) :
    pairAfter cp (body ++ 34 :: rest) = (lowFirst parts).map (pairPoint cp) := by
  have unmarked {text : List UInt8} (marks : ∀ rest, text ≠ 92 :: 117 :: rest) :
      pairAfter cp text = none :=
    Option.eq_none_iff_forall_ne_some.mpr fun point paired => by
      obtain ⟨low, rest, _, _, same, _⟩ := pairAfter_eq_some.mp paired
      exact marks rest same
  cases chars with
  | nil => exact unmarked (by simp)
  | plain _ _ other => exact unmarked (by simp [other])
  | escape listed => exact unmarked (by simp [letter_ne listed])
  | @unit a b c d w x y z body parts first second third fourth chars =>
    have read : hex4 (a :: b :: c :: d :: (body ++ 34 :: rest)) =
        some (((w * 16 + x) * 16 + y) * 16 + z) :=
      hex4_eq_some.mpr ⟨a, b, c, d, w, x, y, z, _, rfl, first, second, third, fourth, rfl⟩
    generalize ((w * 16 + x) * 16 + y) * 16 + z = unit at read
    by_cases low : IsLow unit
    · simp only [lowFirst, if_pos low, Option.map_some]
      exact pairAfter_eq_some.mpr ⟨unit, _, high, low, rfl, read, rfl⟩
    · simp only [lowFirst, if_neg low, Option.map_none]
      refine Option.eq_none_iff_forall_ne_some.mpr fun point paired => ?_
      obtain ⟨other, rest', _, range, same, read', _⟩ := pairAfter_eq_some.mp paired
      obtain rfl : a :: b :: c :: d :: (body ++ 34 :: rest) = rest' := by simpa using same
      obtain rfl := Option.some.inj (read.symm.trans read')
      exact low range

theorem emit_eq_ok {bytes out left : List UInt8}
    {result : Except JsonError (List UInt8 × List UInt8)} :
    emit bytes result = .ok (out, left) ↔
      ∃ tail, result = .ok (tail, left) ∧ out = bytes ++ tail := by
  unfold emit
  cases result with
  | error error => simp [Except.map]
  | ok pair =>
    obtain ⟨text, rest⟩ := pair
    simp only [Except.map, Except.ok.injEq, Prod.mk.injEq]
    constructor
    · rintro ⟨rfl, rfl⟩
      exact ⟨text, ⟨rfl, rfl⟩, rfl⟩
    · rintro ⟨tail, ⟨rfl, rfl⟩, rfl⟩
      exact ⟨rfl, rfl⟩

theorem parseString_sound {text out rest : List UInt8} (parsed : parseString text = .ok (out, rest)) :
    ∃ body parts, text = body ++ 34 :: rest ∧ Chars body parts ∧ out = decode 0xFFFD parts := by
  fun_induction parseString text generalizing out with
  | case1 => cases parsed
  | case2 left =>
    obtain ⟨rfl, rfl⟩ := Prod.mk.inj (Except.ok.inj parsed)
    exact ⟨[], [], rfl, .nil, by rw [decode]⟩
  | case3 | case5 | case7 | case8 => cases parsed
  | case4 char left quote control plain ih =>
    obtain ⟨tail, read, rfl⟩ := emit_eq_ok.mp parsed
    obtain ⟨body, parts, rfl, chars, rfl⟩ := ih read
    exact ⟨char :: body, .byte char :: parts, rfl,
      .plain (UInt8.not_lt.mp control) quote plain chars, decode_byte.symm⟩
  | case6 char quote control backslash letter left byte known ih =>
    obtain rfl := not_not.mp backslash
    obtain ⟨tail, read, rfl⟩ := emit_eq_ok.mp parsed
    obtain ⟨body, parts, rfl, chars, rfl⟩ := ih read
    exact ⟨92 :: letter :: body, .byte byte :: parts, rfl,
      .escape (plainEscape_eq_some.mp known) chars, decode_byte.symm⟩
  | case9 char quote control backslash letter left plain u cp read point paired ih =>
    obtain rfl := not_not.mp backslash
    obtain rfl := not_not.mp u
    obtain ⟨tail, inner, rfl⟩ := emit_eq_ok.mp parsed
    obtain ⟨body, parts, same, chars, rfl⟩ := ih inner
    obtain ⟨a, b, c, d, w, x, y, z, after, rfl, first, second, third, fourth, unit⟩ :=
      hex4_eq_some.mp read
    obtain ⟨low, next, high, range, follows, readLow, pair⟩ := pairAfter_eq_some.mp paired
    obtain rfl : after = 92 :: 117 :: next := follows
    obtain ⟨a', b', c', d', w', x', y', z', after', rfl, first', second', third', fourth', unit'⟩ :=
      hex4_eq_some.mp readLow
    obtain rfl : after' = body ++ 34 :: rest := same
    refine ⟨92 :: 117 :: a :: b :: c :: d :: 92 :: 117 :: a' :: b' :: c' :: d' :: body,
      .unit cp :: .unit low :: parts, rfl, ?_, ?_⟩
    · rw [unit, unit']
      exact .unit first second third fourth (.unit first' second' third' fourth' chars)
    · rw [decode_pair high range, pair, putUtf8_eq (pairPoint_lt high range)]
  | case10 char quote control backslash letter left plain u cp read alone ih =>
    obtain rfl := not_not.mp backslash
    obtain rfl := not_not.mp u
    obtain ⟨tail, inner, rfl⟩ := emit_eq_ok.mp parsed
    obtain ⟨body, parts, same, chars, rfl⟩ := ih inner
    obtain ⟨a, b, c, d, w, x, y, z, after, rfl, first, second, third, fourth, unit⟩ :=
      hex4_eq_some.mp read
    obtain rfl : after = body ++ 34 :: rest := same
    have small := hex4_lt read
    refine ⟨92 :: 117 :: a :: b :: c :: d :: body, .unit cp :: parts, rfl, ?_, ?_⟩
    · rw [unit]
      exact .unit first second third fourth chars
    · rw [decode_unit, putUtf8_eq]
      · split <;> omega
      · intro high
        have none_after := (pairAfter_chars high chars).symm.trans alone
        simpa using none_after

theorem parseString_close (rest : List UInt8) : parseString (34 :: rest) = .ok ([], rest) := by
  rw [parseString.eq_def]
  rfl

theorem parseString_plain {byte : UInt8} (rest : List UInt8) (visible : 32 ≤ byte)
    (quote : byte ≠ 34) (backslash : byte ≠ 92) :
    parseString (byte :: rest) = emit [byte] (parseString rest) := by
  rw [parseString.eq_def]
  simp only
  rw [if_neg quote, if_neg (UInt8.not_lt.mpr visible), if_pos backslash]

theorem parseString_escape {letter byte : UInt8} (rest : List UInt8)
    (known : plainEscape letter = some byte) :
    parseString (92 :: letter :: rest) = emit [byte] (parseString rest) := by
  rw [parseString.eq_def]
  simp [known]

theorem parseString_unit {a b c d : UInt8} {cp : Nat} (rest : List UInt8)
    (read : hex4 (a :: b :: c :: d :: rest) = some cp) :
    parseString (92 :: 117 :: a :: b :: c :: d :: rest) =
      match pairAfter cp rest with
      | some point => emit (putUtf8 point) (parseString (rest.drop 6))
      | none => emit (putUtf8 (if cp = 0 then 0xFFFD else cp)) (parseString rest) := by
  have plain : plainEscape 117 = none := rfl
  rw [parseString.eq_def]
  simp only [plain, read, List.drop_succ_cons, List.drop_zero]
  rfl

theorem parseString_complete {body rest : List UInt8} {parts : List Part} (chars : Chars body parts) :
    parseString (body ++ 34 :: rest) = .ok (decode 0xFFFD parts, rest) := by
  induction size : body.length using Nat.strongRecOn generalizing body parts with
  | ind size ih =>
    subst size
    cases chars with
    | nil => rw [List.nil_append, parseString_close, decode]
    | @plain byte body parts visible quote backslash chars =>
      rw [List.cons_append, parseString_plain _ visible quote backslash,
        ih body.length (by simp) chars rfl, decode_byte]
      rfl
    | @escape letter byte body parts listed chars =>
      rw [List.cons_append, List.cons_append, parseString_escape _ (plainEscape_eq_some.mpr listed),
        ih body.length (by simp only [List.length_cons]; omega) chars rfl, decode_byte]
      rfl
    | @unit a b c d w x y z body parts first second third fourth chars =>
      have read : hex4 (a :: b :: c :: d :: (body ++ 34 :: rest)) =
          some (((w * 16 + x) * 16 + y) * 16 + z) :=
        hex4_eq_some.mpr ⟨a, b, c, d, w, x, y, z, _, rfl, first, second, third, fourth, rfl⟩
      have small := hex4_lt read
      have unpaired := ih body.length (by simp only [List.length_cons]; omega) chars rfl
      generalize ((w * 16 + x) * 16 + y) * 16 + z = cp at read small
      have step := parseString_unit _ read
      cases paired : pairAfter cp (body ++ 34 :: rest) with
      | none =>
        have alone (high : IsHigh cp) : lowFirst parts = none := by
          have both := (pairAfter_chars high chars).symm.trans paired
          simpa using both
        simp only [paired] at step
        refine step.trans ?_
        rw [decode_unit alone, putUtf8_eq (by split <;> omega)]
        exact congrArg (emit _) unpaired
      | some point =>
        obtain ⟨_, _, high, _⟩ := pairAfter_eq_some.mp paired
        have both := (pairAfter_chars high chars).symm.trans paired
        obtain ⟨low, follows, rfl⟩ := Option.map_eq_some_iff.mp both
        obtain ⟨range, next, rfl⟩ := lowFirst_eq_some follows
        simp only [paired] at step
        refine step.trans ?_
        rw [decode_pair high range, putUtf8_eq (pairPoint_lt high range)]
        cases chars with
        | unit _ _ _ _ chars =>
          have beyond := ih _ (by simp only [List.length_cons]; omega) chars rfl
          exact congrArg (emit _) beyond

/-! ### Numbers -/

theorem isPrefixOf_split {word text : List UInt8} (starts : word.isPrefixOf text = true) :
    text = word ++ text.drop word.length := by
  obtain ⟨rest, rfl⟩ := List.isPrefixOf_iff_prefix.mp starts
  rw [List.drop_left]

theorem takeWhile_length_le (digit : UInt8 → Bool) (text : List UInt8) :
    (text.takeWhile digit).length ≤ text.length :=
  (List.takeWhile_prefix digit).length_le

theorem nanLen_le (text : List UInt8) : nanLen text ≤ text.length := by
  unfold nanLen
  split
  · rename_i rest
    dsimp only
    split
    · rename_i closed
      have inner := takeWhile_length_le isNanChar rest
      have more : (rest.takeWhile isNanChar).length < rest.length := by
        by_contra whole
        rw [List.drop_eq_nil_of_le (by omega)] at closed
        nomatch closed
      rw [List.length_cons]
      omega
    · omega
  · omega

theorem mantissaLen_le (digit : UInt8 → Bool) (point text : List UInt8) :
    mantissaLen digit point text ≤ text.length := by
  have whole := takeWhile_length_le digit text
  unfold mantissaLen
  dsimp only
  split
  · rename_i starts
    have after := congrArg List.length (isPrefixOf_split starts)
    have fraction := takeWhile_length_le digit
      ((text.drop (text.takeWhile digit).length).drop point.length)
    simp only [List.length_append, List.length_drop] at after fraction
    split <;> omega
  · exact whole

theorem exponentLen_le (mark : UInt8) (text : List UInt8) : exponentLen mark text ≤ text.length := by
  unfold exponentLen
  split
  · rename_i char rest
    dsimp only
    generalize (if rest.head? = some 43 ∨ rest.head? = some 45 then 1 else 0) = sign
    have digits := takeWhile_length_le isDigit (rest.drop sign)
    rw [List.length_drop] at digits
    split
    · rw [List.length_cons]
      omega
    · omega
  · exact Nat.le_refl _

theorem floatLen_le (digit : UInt8 → Bool) (mark : UInt8) (point text : List UInt8) :
    floatLen digit mark point text ≤ text.length := by
  have mantissa := mantissaLen_le digit point text
  have exponent := exponentLen_le mark (text.drop (mantissaLen digit point text))
  rw [List.length_drop] at exponent
  unfold floatLen
  dsimp only
  split <;> omega

theorem startsWith_length {word text : List UInt8} (starts : startsWith word text = true) :
    word.length ≤ text.length := by
  have lengths := congrArg List.length (of_decide_eq_true starts)
  rw [List.length_map, List.length_take] at lengths
  omega

theorem unsignedLen_le (point text : List UInt8) : unsignedLen point text ≤ text.length := by
  unfold unsignedLen
  split
  · rename_i starts
    exact startsWith_length starts
  · split
    · rename_i starts
      exact startsWith_length starts
    · split
      · rename_i starts
        have word := startsWith_length starts
        have tail := nanLen_le (text.drop 3)
        simp only [List.length_drop, List.length_cons, List.length_nil] at word tail
        omega
      · split
        · rename_i marked
          have digits := floatLen_le isHex 112 point (text.drop 2)
          have two : 2 ≤ text.length := by
            match text with
            | [] | [_] => simp [hexMark] at marked
            | _ :: _ :: _ => simp only [List.length_cons]; omega
          rw [List.length_drop] at digits
          dsimp only
          split <;> omega
        · exact floatLen_le isDigit 101 point text

theorem strtodLen_le (point text : List UInt8) : strtodLen point text ≤ text.length := by
  unfold strtodLen
  split
  · exact Nat.le_refl _
  · rename_i char rest
    have digits := unsignedLen_le point rest
    dsimp only
    split
    · rw [List.length_cons]
      split <;> omega
    · exact unsignedLen_le point (char :: rest)

/-! ### What the reader accepts -/

variable {point : List UInt8} {levels : Nat}

/-- `strtod` takes the token, and no more, where `rest` follows it. -/
def TakenWhole (point token rest : List UInt8) : Prop :=
  (∃ first tail, token = first :: tail ∧ (first = 45 ∨ isDigit first = true)) ∧
    strtodLen point (token ++ rest) = token.length

abbrev MjReads (point : List UInt8) : Nat → Reading → List UInt8 → List UInt8 → Prop :=
  Reads (TakenWhole point) 0xFFFD

theorem skipWs_split (text : List UInt8) : ∃ space, Ws space ∧ text = space ++ skipWs text :=
  ⟨text.takeWhile isWs, fun _ inside => List.mem_takeWhile_imp inside,
    (List.takeWhile_append_dropWhile).symm⟩

theorem skipWs_append {space : List UInt8} (ws : Ws space) (text : List UInt8) :
    skipWs (space ++ text) = skipWs text := by
  unfold skipWs
  exact List.dropWhile_append_of_pos ws

theorem skipWs_cons {char : UInt8} (visible : isWs char = false) (text : List UInt8) :
    skipWs (char :: text) = char :: text := by
  simp [skipWs, visible]

theorem skipWs_skipWs (text : List UInt8) : skipWs (skipWs text) = skipWs text :=
  List.dropWhile_idempotent isWs text

theorem map_eq_ok {α β : Type} {f : α → β} {result : Except JsonError α} {value : β} :
    result.map f = .ok value ↔ ∃ inner, result = .ok inner ∧ f inner = value := by
  cases result <;> simp [Except.map]

theorem parseScalar_sound {char : UInt8} {text left : List UInt8} {tree : Json}
    (parsed : parseScalar point (char :: text) char = .ok (tree, left)) :
    MjReads point levels (.value tree) (char :: text) left := by
  unfold parseScalar at parsed
  split at parsed
  · rename_i quote
    obtain ⟨⟨string, rest⟩, inner, same⟩ := map_eq_ok.mp parsed
    obtain ⟨rfl, rfl⟩ := Prod.mk.inj same
    obtain ⟨body, parts, follows, chars, rfl⟩ := parseString_sound inner
    obtain rfl := quote
    obtain rfl : text = body ++ 34 :: rest := follows
    exact .str chars
  · split at parsed
    · rename_i starts
      obtain ⟨rfl, rfl⟩ := Prod.mk.inj (Except.ok.inj parsed)
      rw [isPrefixOf_split starts]
      exact .yes
    · split at parsed
      · rename_i starts
        obtain ⟨rfl, rfl⟩ := Prod.mk.inj (Except.ok.inj parsed)
        rw [isPrefixOf_split starts]
        exact .no
      · split at parsed
        · rename_i starts
          obtain ⟨rfl, rfl⟩ := Prod.mk.inj (Except.ok.inj parsed)
          rw [isPrefixOf_split starts]
          exact .null
        · split at parsed
          · rename_i first
            split at parsed
            · nomatch parsed
            · rename_i taken
              obtain ⟨rfl, rfl⟩ := Prod.mk.inj (Except.ok.inj parsed)
              have whole := List.take_append_drop (strtodLen point (char :: text)) (char :: text)
              have length : ((char :: text).take (strtodLen point (char :: text))).length =
                  strtodLen point (char :: text) :=
                List.length_take_of_le (strtodLen_le point (char :: text))
              have fits : TakenWhole point ((char :: text).take (strtodLen point (char :: text)))
                  ((char :: text).drop (strtodLen point (char :: text))) :=
                ⟨⟨char, _, List.take_cons (Nat.pos_of_ne_zero taken), first⟩, by rw [whole, length]⟩
              have reads : MjReads point levels _ (_ ++ _) _ := .num fits
              rwa [whole] at reads
          · nomatch parsed

/-- What a reader of values accepts is a value that has room for `levels` more below it, of
which one is taken. -/
def SoundBelow (point : List UInt8) (levels : Nat)
    (below : List UInt8 → Except JsonError (Json × List UInt8)) : Prop :=
  ∀ text tree rest, below text = .ok (tree, rest) → ∃ lower, levels = lower + 1 ∧
    ∃ space body, text = space ++ body ∧ Ws space ∧
      MjReads point lower (.value tree) body rest

theorem memberName_sound {named : Bool} {text name value space body rest : List UInt8} {tree : Json}
    (parsed : memberName named (skipWs text) = .ok (name, value)) (split : value = space ++ body)
    (ws : Ws space) (reads : MjReads point levels (.value tree) body rest) :
    MjReads point levels (.member named name tree) text rest := by
  obtain ⟨before, blank, same⟩ := skipWs_split text
  unfold memberName at parsed
  cases named with
  | false =>
    obtain ⟨rfl, rfl⟩ := Prod.mk.inj (Except.ok.inj parsed)
    rw [same, split, ← List.append_assoc]
    exact .element (blank.append ws) reads
  | true =>
    simp only [Bool.not_true, Bool.false_eq_true, if_false] at parsed
    split at parsed
    · rename_i quoted begins
      split at parsed
      · nomatch parsed
      · rename_i key after inner
        obtain ⟨chars, parts, rfl, valid, rfl⟩ := parseString_sound inner
        obtain ⟨second, blank', same'⟩ := skipWs_split after
        split at parsed
        · rename_i left colon
          obtain ⟨rfl, rfl⟩ := Prod.mk.inj (Except.ok.inj parsed)
          rw [same, begins, same', colon, split]
          exact .pair blank valid blank' ws reads
        · nomatch parsed
    · nomatch parsed

theorem parseMembers_sound {below : List UInt8 → Except JsonError (Json × List UInt8)} {named : Bool}
    (sound : SoundBelow point levels below) {rounds : Nat} {text rest : List UInt8}
    {members : List (List UInt8 × Json)}
    (parsed : parseMembers below named rounds text = .ok (members, rest)) :
    ∃ lower, levels = lower + 1 ∧ MjReads point lower (.members named members) text rest := by
  induction rounds generalizing text members with
  | zero => nomatch parsed
  | succ rounds ih =>
    unfold parseMembers at parsed
    split at parsed
    · nomatch parsed
    · rename_i name value begins
      split at parsed
      · nomatch parsed
      · rename_i tree after inner
        obtain ⟨lower, rfl, space, body, split_value, ws, reads⟩ := sound _ _ _ inner
        have member := memberName_sound begins split_value ws reads
        obtain ⟨blank, blank_ws, same⟩ := skipWs_split after
        split at parsed
        · nomatch parsed
        · rename_i char left next
          rw [same, next] at member
          split at parsed
          · rename_i comma
            subst comma
            obtain ⟨⟨others, final⟩, more, joined⟩ := map_eq_ok.mp parsed
            obtain ⟨rfl, rfl⟩ := Prod.mk.inj joined
            obtain ⟨lower', level, reads'⟩ := ih more
            obtain rfl := Nat.succ.inj level
            exact ⟨_, rfl, .more member blank_ws reads'⟩
          · split at parsed
            · rename_i closed
              subst closed
              obtain ⟨rfl, rfl⟩ := Prod.mk.inj (Except.ok.inj parsed)
              exact ⟨_, rfl, .last member blank_ws⟩
            · nomatch parsed

theorem parseContainer_sound {below : List UInt8 → Except JsonError (Json × List UInt8)}
    {named : Bool} (sound : SoundBelow point levels below) {text rest : List UInt8} {tree : Json}
    (parsed : parseContainer below named text = .ok (tree, rest)) :
    MjReads point levels (.value tree) (opening named :: text) rest := by
  obtain ⟨space, ws, same⟩ := skipWs_split text
  unfold parseContainer at parsed
  split at parsed
  · rename_i closed
    obtain ⟨rfl, rfl⟩ := Prod.mk.inj (Except.ok.inj parsed)
    obtain ⟨left, next⟩ := List.head?_eq_some_iff.mp closed
    rw [next] at same
    rw [next, same]
    exact .empty ws
  · obtain ⟨⟨members, final⟩, inner, joined⟩ := map_eq_ok.mp parsed
    obtain ⟨rfl, rfl⟩ := Prod.mk.inj joined
    obtain ⟨lower, rfl, reads⟩ := parseMembers_sound sound inner
    rw [same]
    exact .node (reads.spaced ws)

theorem parseValue_sound : SoundBelow point levels (parseValue point levels) := by
  induction levels with
  | zero =>
    intro text tree rest parsed
    nomatch parsed
  | succ levels ih =>
    intro text tree rest parsed
    obtain ⟨space, ws, same⟩ := skipWs_split text
    refine ⟨levels, rfl, space, skipWs text, same, ws, ?_⟩
    unfold parseValue at parsed
    split at parsed
    · nomatch parsed
    · rename_i char left next
      rw [next]
      split at parsed
      · rename_i bracket
        have reads := parseContainer_sound ih parsed
        rcases bracket with rfl | rfl
        · exact reads
        · exact reads
      · exact parseScalar_sound parsed

/-! ### What it accepts it was given -/

theorem numberStart {first : UInt8} (start : first = 45 ∨ isDigit first = true) :
    45 ≤ first.toNat ∧ first.toNat ≤ 57 := by
  rcases start with rfl | digit
  · decide
  · simp only [isDigit, Bool.and_eq_true, decide_eq_true_eq] at digit
    obtain ⟨low, high⟩ := digit
    have low : 48 ≤ first.toNat := low
    have high : first.toNat ≤ 57 := high
    omega

theorem ne_of_toNat {first : UInt8} {char : Nat} (different : first.toNat ≠ char % 256) :
    first ≠ UInt8.ofNat char := by
  rintro rfl
  exact different UInt8.toNat_ofNat

theorem valueHead {tree : Json} {text rest : List UInt8}
    (reads : MjReads point levels (.value tree) text rest) :
    ∃ char left, text = char :: left ∧ isWs char = false ∧ char ≠ 93 ∧ char ≠ 239 := by
  cases reads with
  | null | yes | no | str => exact ⟨_, _, rfl, by decide⟩
  | @empty _ named | @node _ named =>
    cases named with
    | false | true => exact ⟨_, _, rfl, by decide⟩
  | num fits =>
    obtain ⟨⟨first, tail, rfl, start⟩, _⟩ := fits
    have range := numberStart start
    have other (char : Nat) (outside : char % 256 < 45 ∨ 57 < char % 256) :
        first ≠ UInt8.ofNat char := ne_of_toNat (by omega)
    refine ⟨first, tail ++ rest, rfl, ?_, other 93 (by decide), other 239 (by decide)⟩
    have space := other 32 (by decide)
    have tab := other 9 (by decide)
    have newline := other 10 (by decide)
    have return_char := other 13 (by decide)
    unfold isWs
    simp_all

theorem parseScalar_num {token rest : List UInt8} (fits : TakenWhole point token rest) :
    ∃ char left, token ++ rest = char :: left ∧ ¬(char = 123 ∨ char = 91) ∧
      parseScalar point (char :: left) char = .ok (.num token, rest) := by
  obtain ⟨⟨first, tail, rfl, start⟩, taken⟩ := fits
  have range := numberStart start
  have other (char : Nat) (outside : char % 256 < 45 ∨ 57 < char % 256) :
      first ≠ UInt8.ofNat char := ne_of_toNat (by omega)
  refine ⟨first, tail ++ rest, rfl, ?_, ?_⟩
  · exact fun bracket => bracket.elim (other 123 (by decide)) (other 91 (by decide))
  · have quote : first ≠ 34 := other 34 (by decide)
    have t : first ≠ 116 := other 116 (by decide)
    have f : first ≠ 102 := other 102 (by decide)
    have n : first ≠ 110 := other 110 (by decide)
    have lengths : strtodLen point (first :: (tail ++ rest)) = (first :: tail).length := taken
    have some_taken : strtodLen point (first :: (tail ++ rest)) ≠ 0 := by simp [lengths]
    unfold parseScalar
    rw [if_neg quote, if_neg (by simp [t.symm]), if_neg (by simp [f.symm]), if_neg (by simp [n.symm]),
      if_pos start, if_neg some_taken, lengths, ← List.cons_append, List.take_left, List.drop_left]

theorem closing_ne (named : Bool) : closing named ≠ 44 := by
  cases named <;> decide

theorem isWs_closing (named : Bool) : isWs (closing named) = false := by
  cases named <;> decide

/-- What the reader does with a piece of text that the grammar reads. -/
def Parsed (point : List UInt8) (levels : Nat) (text rest : List UInt8) : Reading → Prop
  | .value tree =>
    ∀ space, Ws space → parseValue point (levels + 1) (space ++ text) = .ok (tree, rest)
  | .member named name tree =>
    (skipWs text).head? ≠ some (closing named) ∧ ∃ value,
      memberName named (skipWs text) = .ok (name, value) ∧
      parseValue point (levels + 1) value = .ok (tree, rest)
  | .members named members =>
    (skipWs text).head? ≠ some (closing named) ∧ ∀ rounds, text.length < rounds →
      parseMembers (parseValue point (levels + 1)) named rounds text = .ok (members, rest)

theorem parseValue_scalar {char : UInt8} {left rest : List UInt8} {tree : Json}
    (visible : isWs char = false) (bracket : ¬(char = 123 ∨ char = 91))
    (scalar : parseScalar point (char :: left) char = .ok (tree, rest)) :
    Parsed point levels (char :: left) rest (.value tree) := by
  intro space ws
  rw [parseValue, skipWs_append ws, skipWs_cons visible]
  simp only
  rw [if_neg bracket, scalar]

theorem parseValue_container {named : Bool} {left rest : List UInt8} {tree : Json}
    (inner : parseContainer (parseValue point levels) named left = .ok (tree, rest)) :
    Parsed point levels (opening named :: left) rest (.value tree) := by
  intro space ws
  cases named with
  | false | true =>
    rw [parseValue, skipWs_append ws, skipWs_cons (by decide)]
    exact inner

theorem parseMembers_skipWs (below : List UInt8 → Except JsonError (Json × List UInt8))
    (named : Bool) (rounds : Nat) (text : List UInt8) :
    parseMembers below named (rounds + 1) (skipWs text) =
      parseMembers below named (rounds + 1) text := by
  rw [parseMembers, skipWs_skipWs, parseMembers]

theorem parse_complete {reading : Reading} {text rest : List UInt8}
    (reads : MjReads point levels reading text rest) : Parsed point levels text rest reading := by
  induction reads with
  | null | yes | no => exact parseValue_scalar (by decide) (by decide) rfl
  | @num levels token rest fits =>
    have reads : MjReads point levels (.value (.num token)) (token ++ rest) rest := .num fits
    obtain ⟨char, left, same, bracket, scalar⟩ := parseScalar_num fits
    obtain ⟨first, tail, begins, visible, _⟩ := valueHead reads
    obtain ⟨rfl, rfl⟩ := List.cons.inj (same.symm.trans begins)
    rw [same]
    exact parseValue_scalar visible bracket scalar
  | @str levels body rest parts chars =>
    have scalar : parseScalar point (34 :: (body ++ 34 :: rest)) 34 =
        .ok (.str (decode 0xFFFD parts), rest) :=
      map_eq_ok.mpr ⟨_, parseString_complete chars, rfl⟩
    exact parseValue_scalar (by decide) (by decide) scalar
  | @empty levels named space rest ws =>
    refine parseValue_container ?_
    unfold parseContainer
    rw [skipWs_append ws, skipWs_cons (isWs_closing named)]
    exact if_pos rfl
  | @node levels named members text rest _ ih =>
    obtain ⟨open_, parsed⟩ := ih
    refine parseValue_container ?_
    unfold parseContainer
    rw [if_neg open_]
    rw [parseMembers_skipWs, parsed _ (Nat.lt_succ_self _)]
    rfl
  | element ws reads ih =>
    obtain ⟨char, left, rfl, visible, bracket, _⟩ := valueHead reads
    refine ⟨?_, ?_⟩
    · rw [skipWs_append ws, skipWs_cons visible]
      exact fun closed => bracket (Option.some.inj closed)
    · rw [skipWs_append ws, skipWs_cons visible]
      exact ⟨_, rfl, ih [] (by simp [Ws])⟩
  | @pair levels tree first second third body text rest parts ws chars ws' ws'' reads ih =>
    refine ⟨?_, third ++ text, ?_, ih third ws''⟩
    · rw [skipWs_append ws, skipWs_cons (by decide)]
      exact fun closed => nomatch closed
    · rw [skipWs_append ws, skipWs_cons (by decide), memberName]
      simp only [Bool.not_true, Bool.false_eq_true, if_false, parseString_complete chars]
      rw [skipWs_append ws', skipWs_cons (by decide)]
      rfl
  | @last levels named name tree text space rest member ws ih =>
    obtain ⟨open_, value, begins, parsed⟩ := ih
    refine ⟨open_, fun rounds enough => ?_⟩
    obtain ⟨rounds, rfl⟩ := Nat.exists_eq_succ_of_ne_zero (Nat.ne_of_gt (Nat.zero_lt_of_lt enough))
    rw [parseMembers, begins]
    dsimp only
    rw [parsed]
    dsimp only
    rw [skipWs_append ws, skipWs_cons (isWs_closing named)]
    dsimp only
    rw [if_neg (closing_ne named), if_pos rfl]
  | @more levels named name tree members text space next rest member ws others first ih =>
    obtain ⟨open_, value, begins, parsed⟩ := first
    obtain ⟨_, later⟩ := ih
    refine ⟨open_, fun rounds enough => ?_⟩
    obtain ⟨rounds, rfl⟩ := Nat.exists_eq_succ_of_ne_zero (Nat.ne_of_gt (Nat.zero_lt_of_lt enough))
    have shorter := member.length_le
    simp only [List.length_append, List.length_cons] at shorter
    rw [parseMembers, begins]
    dsimp only
    rw [parsed]
    dsimp only
    rw [skipWs_append ws, skipWs_cons (by decide)]
    dsimp only
    rw [if_pos rfl, later rounds (by omega)]
    rfl

theorem unmarked {before body after : List UInt8} {tree : Json} (ws : Ws before)
    (reads : MjReads point levels (.value tree) body after) :
    ¬byteOrderMark.isPrefixOf (before ++ body) = true := by
  intro mark
  have same := isPrefixOf_split mark
  cases before with
  | nil =>
    obtain ⟨char, left, rfl, _, _, other⟩ := valueHead reads
    exact other (List.cons.inj same).1
  | cons blank before =>
    have space := ws blank List.mem_cons_self
    rw [(List.cons.inj same).1] at space
    nomatch space

/-- The reader accepts the grammar with the numbers that `strtod` takes. -/
theorem mjParse_eq_ok {text : Document} {tree : Json} :
    mjParse point text = .ok tree ↔ text.bytes.length ≤ mjMaxText ∧
      Whole (TakenWhole point) 0xFFFD mjMaxDepth text.bytes tree := by
  unfold mjParse
  constructor
  · intro parsed
    split at parsed
    · nomatch parsed
    · rename_i size
      refine ⟨Nat.not_lt.mp size, ?_⟩
      dsimp only at parsed
      split at parsed
      · nomatch parsed
      · rename_i tree' rest inner
        split at parsed
        · rename_i blank
          obtain rfl := Except.ok.inj parsed
          obtain ⟨lower, level, space, body, start, ws, reads⟩ := parseValue_sound _ _ _ inner
          obtain rfl := Nat.succ.inj level
          obtain ⟨after, ws', same⟩ := skipWs_split rest
          rw [blank, List.append_nil] at same
          subst same
          refine ⟨space, body, _, ?_, ws, reads, ws'⟩
          split at start
          · rename_i mark
            rw [← start]
            exact .inr (isPrefixOf_split mark)
          · exact .inl start
        · nomatch parsed
  · rintro ⟨size, before, body, after, split, ws, reads, ws'⟩
    rw [if_neg (Nat.not_lt.mpr size)]
    have start : (if byteOrderMark.isPrefixOf text.bytes then text.bytes.drop 3 else text.bytes) =
        before ++ body := by
      rcases split with whole | marked
      · rw [if_neg, whole]
        rw [whole]
        exact unmarked ws reads
      · rw [marked, if_pos]
        · rfl
        · rfl
    have blank : skipWs after = [] := List.dropWhile_eq_nil_iff.mpr ws'
    dsimp only
    rw [start, parse_complete reads before ws]
    dsimp only
    rw [if_pos blank]

/-! ### The numbers of JSON -/

theorem delimited_head {rest : List UInt8} (left : Delimited rest) {char : UInt8}
    (head : rest.head? = some char) :
    isDigit char = false ∧ char ≠ 46 ∧ toLower char ≠ 101 ∧ toLower char ≠ 120 := by
  have marks := left char head
  simp only [isWs, Bool.or_eq_true, decide_eq_true_eq] at marks
  rcases marks with (((rfl | rfl) | rfl) | rfl) | rfl | rfl | rfl <;> decide

theorem takeWhile_stops {digits rest : List UInt8} (all : Digits digits)
    (other : ∀ char, rest.head? = some char → isDigit char = false) :
    (digits ++ rest).takeWhile isDigit = digits := by
  rw [List.takeWhile_append_of_pos all]
  cases rest with
  | nil => simp
  | cons char rest => simp [other char rfl]

theorem toLower_digit {char : UInt8} (digit : isDigit char = true) : toLower char = char := by
  have range := numberStart (.inr digit)
  unfold toLower
  rw [if_neg]
  rintro ⟨low, _⟩
  have low : 65 ≤ char.toNat := low
  omega

/-- A text that starts with a digit does not start with a word. -/
theorem startsWith_digit {first char : UInt8} {word text : List UInt8}
    (digit : isDigit char = true) (letter : isDigit first = false) :
    startsWith (first :: word) (char :: text) = false := by
  unfold startsWith
  rw [decide_eq_false_iff_not, List.length_cons, List.take_succ_cons, List.map_cons, toLower_digit digit]
  intro same
  rw [(List.cons.inj same).1, letter] at digit
  nomatch digit

theorem exponentLen_exponent {exponent rest : List UInt8} (valid : Exponent exponent)
    (left : Delimited rest) : exponentLen 101 (exponent ++ rest) = exponent.length := by
  cases valid with
  | absent =>
    cases rest with
    | nil => rfl
    | cons char rest =>
      obtain ⟨_, _, other, _⟩ := delimited_head left rfl
      simp [exponentLen, other]
  | @digits mark sign digits letter signed some_digits all =>
    have lower : toLower mark = 101 := by rcases letter with rfl | rfl <;> rfl
    have taken := takeWhile_stops all fun char head => (delimited_head left head).1
    have some_length : digits.length ≠ 0 := by simpa using some_digits
    have unsigned : ¬((digits ++ rest).head? = some 43 ∨ (digits ++ rest).head? = some 45) := by
      obtain ⟨first, others, rfl⟩ := List.exists_cons_of_ne_nil some_digits
      have range := numberStart (.inr (all first List.mem_cons_self))
      have digit := all first List.mem_cons_self
      rintro (head | head)
      · rw [Option.some.inj head] at digit
        nomatch digit
      · rw [Option.some.inj head] at digit
        nomatch digit
    unfold exponentLen
    rcases signed with rfl | rfl | rfl
    · simp only [List.cons_append, lower]
      simp only [List.nil_append, if_neg unsigned, List.drop_zero, taken, List.length_cons]
      rw [if_pos ⟨trivial, some_length⟩]
      omega
    · simp [taken, lower, some_length]
      omega
    · simp [taken, lower, some_length]
      omega

theorem mantissaLen_number {whole fraction text : List UInt8} (valid : Digits whole)
    (some_whole : whole ≠ []) (decimals : Fraction fraction)
    (other : ∀ char, text.head? = some char → isDigit char = false ∧ char ≠ 46) :
    mantissaLen isDigit [46] (whole ++ (fraction ++ text)) = whole.length + fraction.length := by
  have digits : (whole ++ (fraction ++ text)).takeWhile isDigit = whole := by
    refine takeWhile_stops valid fun char head => ?_
    cases decimals with
    | absent => exact (other char head).1
    | digits => rw [← Option.some.inj head]; rfl
  have some_length : whole.length ≠ 0 := by simpa using some_whole
  unfold mantissaLen
  rw [digits]
  dsimp only
  rw [List.drop_left]
  cases decimals with
  | absent =>
    cases text with
    | nil => rfl
    | cons char text =>
      have different := (other char rfl).2
      simp [different.symm]
  | digits _ all =>
    have taken := takeWhile_stops all fun char head => (other char head).1
    simp [taken, some_length]
    omega

/-- The exponent, or what follows the number, neither continues its digits nor its fraction. -/
theorem exponent_head {exponent rest : List UInt8} (power : Exponent exponent)
    (left : Delimited rest) {char : UInt8} (head : (exponent ++ rest).head? = some char) :
    isDigit char = false ∧ char ≠ 46 ∧ toLower char ≠ 120 := by
  cases power with
  | absent =>
    obtain ⟨digit, point, _, hex⟩ := delimited_head left head
    exact ⟨digit, point, hex⟩
  | digits letter =>
    obtain rfl := Option.some.inj head
    rcases letter with rfl | rfl <;> decide

theorem unsignedLen_number {whole fraction exponent rest : List UInt8} (valid : WholePart whole)
    (decimals : Fraction fraction) (power : Exponent exponent) (left : Delimited rest) :
    unsignedLen [46] (whole ++ (fraction ++ (exponent ++ rest))) =
      whole.length + fraction.length + exponent.length := by
  obtain ⟨all, some_whole⟩ := valid.all_digits
  have mantissa : mantissaLen isDigit [46] (whole ++ (fraction ++ (exponent ++ rest))) =
      whole.length + fraction.length :=
    mantissaLen_number all some_whole decimals fun char head =>
      ⟨(exponent_head power left head).1, (exponent_head power left head).2.1⟩
  have some_length : whole.length ≠ 0 := by simpa using some_whole
  have float : floatLen isDigit 101 [46] (whole ++ (fraction ++ (exponent ++ rest))) =
      whole.length + fraction.length + exponent.length := by
    unfold floatLen
    rw [mantissa, if_neg (by omega), ← List.append_assoc, ← List.length_append, List.drop_left,
      exponentLen_exponent power left]
  obtain ⟨first, others, rfl⟩ := List.exists_cons_of_ne_nil some_whole
  have digit := all first List.mem_cons_self
  have decimal : hexMark (first :: others ++ (fraction ++ (exponent ++ rest))) = false := by
    cases valid with
    | zero =>
      have plain (char : UInt8) (head : (fraction ++ (exponent ++ rest)).head? = some char) :
          toLower char ≠ 120 := by
        cases decimals with
        | absent => exact (exponent_head power left head).2.2
        | digits =>
          obtain rfl := Option.some.inj head
          decide
      cases next : (fraction ++ (exponent ++ rest)).head? with
      | none => simp [hexMark, next]
      | some char => simp [hexMark, next, plain char next]
    | digits _ other => simp [hexMark, other]
  unfold unsignedLen
  rw [List.cons_append, startsWith_digit digit rfl, startsWith_digit digit rfl,
    startsWith_digit digit rfl, ← List.cons_append, decimal, float]
  rfl

theorem takenWhole_number {token rest : List UInt8} (valid : Number token) (left : Delimited rest) :
    TakenWhole [46] token rest := by
  obtain ⟨minus, whole, fraction, exponent, sign, int, decimals, power, rfl⟩ := valid
  have digits := unsignedLen_number int decimals power left
  obtain ⟨all, some_whole⟩ := int.all_digits
  obtain ⟨first, others, rfl⟩ := List.exists_cons_of_ne_nil some_whole
  have digit := all first List.mem_cons_self
  rcases sign with rfl | rfl
  · refine ⟨⟨first, _, rfl, .inr digit⟩, ?_⟩
    have unsigned : ¬(first = 43 ∨ first = 45) := by
      rintro (rfl | rfl)
      · nomatch digit
      · nomatch digit
    rw [List.nil_append, List.append_assoc, List.append_assoc]
    unfold strtodLen
    rw [List.cons_append] at digits ⊢
    dsimp only
    rw [if_neg unsigned, digits]
    simp only [List.length_append]
    omega
  · refine ⟨⟨45, _, rfl, .inl rfl⟩, ?_⟩
    have some_digits : (first :: others).length + fraction.length + exponent.length ≠ 0 := by
      rw [List.length_cons]
      omega
    rw [List.append_assoc, List.append_assoc, List.append_assoc]
    unfold strtodLen
    simp only [List.singleton_append]
    rw [if_pos (.inr trivial), digits, if_neg some_digits]
    simp only [List.length_append, List.length_cons]
    omega

/-! ### The reader accepts JSON -/

/-- The reader accepts the document exactly when it is JSON, with the tree that JSON gives it. -/
def JsonExact (point : List UInt8) (text : Document) : Prop :=
  text.bytes.length ≤ mjMaxText → ∀ tree,
    mjParse point text = .ok tree ↔ IsJson 0xFFFD mjMaxDepth text.bytes tree

/-- A reading of the text with the numbers that `strtod` takes has only numbers of JSON, and the
text is UTF-8. -/
def NumbersPlain (point : List UInt8) (text : Document) : Prop :=
  ∀ tree, Whole (TakenWhole point) 0xFFFD mjMaxDepth text.bytes tree →
    Utf8 text.bytes ∧ ∀ token, Within (.num token) tree → Number token

/-- Where the text is JSON, `strtod` takes each of its numbers to the end. -/
def NumbersWhole (point : List UInt8) (text : Document) : Prop :=
  ∀ tree, IsJson 0xFFFD mjMaxDepth text.bytes tree →
    Whole (fun token rest => Number token ∧ TakenWhole point token rest) 0xFFFD mjMaxDepth
      text.bytes tree

theorem numbersWhole_point (text : Document) : NumbersWhole [46] text := by
  intro tree json
  exact json.2.delimited.restrict fun token rest valid _ =>
    ⟨valid.1, takenWhole_number valid.1 valid.2⟩

/-- The reader is exact on a document exactly when `strtod` takes the numbers of JSON there and
no others, and the strings are UTF-8. -/
theorem jsonExact_iff (point : List UInt8) (text : Document) : JsonExact point text ↔
    (text.bytes.length ≤ mjMaxText →
      NumbersPlain point text ∧ (point = [46] ∨ NumbersWhole point text)) := by
  constructor
  · intro exact_ size
    refine ⟨fun tree whole => ?_, .inr fun tree json => ?_⟩
    · have json := (exact_ size tree).mp (mjParse_eq_ok.mpr ⟨size, whole⟩)
      exact ⟨json.1, fun token within => json.2.numbers (fun _ _ valid => valid) within⟩
    · have taken := (mjParse_eq_ok.mp ((exact_ size tree).mpr json)).2
      exact taken.restrict fun token rest taken within =>
        ⟨json.2.numbers (fun _ _ valid => valid) within, taken⟩
  · intro condition size tree
    obtain ⟨plain, point_or_whole⟩ := condition size
    have taken : NumbersWhole point text := by
      rcases point_or_whole with rfl | taken
      · exact numbersWhole_point text
      · exact taken
    constructor
    · intro parsed
      have whole := (mjParse_eq_ok.mp parsed).2
      obtain ⟨utf8, valid⟩ := plain tree whole
      exact ⟨utf8, whole.restrict fun token rest _ within => valid token within⟩
    · intro json
      exact mjParse_eq_ok.mpr ⟨size, (taken tree json).restrict fun _ _ both _ => both.2⟩

def hexNumber : Document := ⟨[48, 120, 49, 48], by decide⟩

def twoNumbers : Document := ⟨[91, 49, 44, 50, 93], by decide⟩

/-- `0x10` is accepted, and where the decimal point is a comma `[1,2]` is read as one number. -/
theorem hexNumber_accepted : ¬JsonExact [46] hexNumber ∧ ¬JsonExact [44] twoNumbers := by
  constructor
  · intro exact_
    have parsed : mjParse [46] hexNumber = .ok (.num [48, 120, 49, 48]) := by rfl
    have json := (exact_ (by decide) _).mp parsed
    have valid : Number [48, 120, 49, 48] := json.2.numbers (fun _ _ valid => valid) .self
    exact absurd (@Number.bytes _ valid 120 (by decide)) (by decide)
  · intro exact_
    have parsed : mjParse [44] twoNumbers = .ok (.node false [([], .num [49, 44, 50])]) := by rfl
    have json := (exact_ (by decide) _).mp parsed
    have valid : Number [49, 44, 50] :=
      json.2.numbers (fun _ _ valid => valid) (.member (List.mem_singleton_self _) .self)
    exact absurd (@Number.bytes _ valid 44 (by decide)) (by decide)

end Rufux.Linux
