import HotCounter.DataPlane.TcpServer

/-!
# The numbers of the C server

The C server reads a line with `strtoull`, which skips blanks, takes a sign, negates modulo
`2 ^ 64` and stops at a byte of zero, while the C++ server takes decimal digits only.
`numbers_compared` says which lines are numbers, and where the two servers differ.
-/

namespace HotCounter

open Foundation

namespace Legacy

open TcpServer (isDigit decimalValue)

/-- `isspace` of the C locale. -/
def isSpace (byte : UInt8) : Bool := byte == 32 || (9 ≤ byte && byte ≤ 13)

/-- What `strtoull` leaves: the value, the offset of `end` and whether `errno` is `ERANGE`. -/
structure Parsed where
  value : ℕ
  stop : ℕ
  range : Bool
  deriving DecidableEq, Repr

/-- The sign in front of a number. -/
def signOf (chars : List UInt8) : List UInt8 :=
  if chars.head? = some 43 then [43] else if chars.head? = some 45 then [45] else []

/-- The value of some digits under a sign. -/
def signedValue (sign digits : List UInt8) : ℕ :=
  if sign = [45] then (2 ^ 64 - decimalValue digits) % 2 ^ 64 else decimalValue digits

/-- `strtoull` in base 10, on the memory from the start of the string on. -/
def strtoull (memory : List UInt8) : Parsed :=
  let chars := memory.takeWhile (· != 0)
  let blank := chars.takeWhile isSpace
  let sign := signOf (chars.drop blank.length)
  let digits := (chars.drop (blank.length + sign.length)).takeWhile isDigit
  let stop := blank.length + sign.length + digits.length
  if digits = [] then ⟨0, 0, false⟩
  else if decimalValue digits ≥ 2 ^ 64 then ⟨2 ^ 64 - 1, stop, true⟩
  else ⟨signedValue sign digits, stop, false⟩

/-- The number that `connection_run` reads, if it takes the line for one. -/
def readNumber (memory : List UInt8) : Option ℕ :=
  let parsed := strtoull memory
  if parsed.range = false ∧ parsed.stop ≠ 0 ∧ memory.getD parsed.stop 0 = 0 then some parsed.value
  else none

/-- A number as `strtoull` reads it: blanks, a sign and digits that fit 64 bits. -/
structure Numeral (text : List UInt8) (delta : ℕ) (blank sign digits : List UInt8) : Prop where
  text_eq : text = blank ++ (sign ++ digits)
  isSpace_blank : ∀ byte ∈ blank, isSpace byte = true
  sign_eq : sign = [] ∨ sign = [43] ∨ sign = [45]
  isDigit_digits : ∀ byte ∈ digits, isDigit byte = true
  nonempty : digits ≠ []
  fits : decimalValue digits < 2 ^ 64
  delta_eq : delta = signedValue sign digits

/-! ### The parts of a string -/

theorem isSpace_eq_false_of_isDigit {byte : UInt8} (h : isDigit byte = true) :
    isSpace byte = false := by
  rw [isDigit, Bool.and_eq_true, decide_eq_true_eq, decide_eq_true_eq, UInt8.le_iff_toNat_le,
    UInt8.le_iff_toNat_le] at h
  rw [isSpace, Bool.or_eq_false_iff, beq_eq_false_iff_ne, Bool.and_eq_false_iff,
    decide_eq_false_iff_not, decide_eq_false_iff_not, UInt8.le_iff_toNat_le, UInt8.le_iff_toNat_le]
  have h48 : (48 : UInt8).toNat = 48 := rfl
  have h13 : (13 : UInt8).toNat = 13 := rfl
  refine ⟨?_, .inr (by omega)⟩
  rintro rfl
  exact absurd h.1 (by decide)

theorem signOf_isPrefix (chars : List UInt8) : signOf chars <+: chars := by
  rw [signOf]
  split
  · rename_i hplus
    exact ⟨chars.tail, List.cons_head?_tail hplus⟩
  split
  · rename_i hminus
    exact ⟨chars.tail, List.cons_head?_tail hminus⟩
  · exact List.nil_prefix

theorem signOf_cases (chars : List UInt8) :
    signOf chars = [] ∨ signOf chars = [43] ∨ signOf chars = [45] := by
  rw [signOf]
  split
  · exact .inr (.inl rfl)
  split
  · exact .inr (.inr rfl)
  · exact .inl rfl

/-- A sign in front of a digit is found. -/
theorem signOf_append {sign digits : List UInt8} (hsign : sign = [] ∨ sign = [43] ∨ sign = [45])
    (hdigits : ∀ byte ∈ digits, isDigit byte = true) : signOf (sign ++ digits) = sign := by
  rcases hsign with rfl | rfl | rfl
  · cases digits with
    | nil => rfl
    | cons byte digits =>
      have hbyte := hdigits byte List.mem_cons_self
      have hne : ∀ {other : UInt8}, isDigit other = false → some byte ≠ some other := by
        rintro other hother ⟨⟩
        rw [hother] at hbyte
        cases hbyte
      rw [List.nil_append, signOf, List.head?_cons, if_neg (hne (by decide)),
        if_neg (hne (by decide))]
  · rfl
  · rfl

/-- The blanks in front of a signed number are found. -/
theorem takeWhile_isSpace_append {blank rest : List UInt8}
    (hblank : ∀ byte ∈ blank, isSpace byte = true)
    (hrest : ∀ byte ∈ rest.head?, isSpace byte = false) :
    (blank ++ rest).takeWhile isSpace = blank := by
  rw [List.takeWhile_append_of_pos hblank]
  cases rest with
  | nil => rw [List.takeWhile_nil, List.append_nil]
  | cons byte rest =>
    rw [List.takeWhile_cons_of_neg (by simp [hrest byte rfl]), List.append_nil]

/-- A prefix that is as long as the list is the list, part by part. -/
theorem append_takeWhile_eq {chars : List UInt8}
    (h : (chars.takeWhile isSpace).length +
        (signOf (chars.drop (chars.takeWhile isSpace).length)).length +
        ((chars.drop ((chars.takeWhile isSpace).length +
          (signOf (chars.drop (chars.takeWhile isSpace).length)).length)).takeWhile
            isDigit).length =
      chars.length) :
    chars = chars.takeWhile isSpace ++ (signOf (chars.drop (chars.takeWhile isSpace).length) ++
      (chars.drop ((chars.takeWhile isSpace).length +
        (signOf (chars.drop (chars.takeWhile isSpace).length)).length)).takeWhile isDigit) := by
  obtain ⟨rest, hrest⟩ := List.takeWhile_prefix (l := chars) isSpace
  set blank := chars.takeWhile isSpace
  have hdrop : chars.drop blank.length = rest := by rw [← hrest, List.drop_left]
  rw [← List.drop_drop, hdrop] at h ⊢
  obtain ⟨tail, htail⟩ := signOf_isPrefix rest
  set sign := signOf rest
  have hdrop' : rest.drop sign.length = tail := by rw [← htail, List.drop_left]
  rw [hdrop'] at h ⊢
  have hlength : (tail.takeWhile isDigit).length = tail.length := by
    have hchars := congrArg List.length hrest
    have hrest' := congrArg List.length htail
    rw [List.length_append] at hchars hrest'
    omega
  rw [(List.takeWhile_prefix isDigit).eq_of_length hlength, htail, hrest]

/-! ### What is a number -/

/-- The string on a line: what comes before a byte of zero. -/
def textOf (line : List UInt8) : List UInt8 := line.takeWhile (· != 0)

theorem textOf_cons_of_ne {byte : UInt8} (h : byte ≠ 0) (line : List UInt8) :
    textOf (byte :: line) = byte :: textOf line :=
  List.takeWhile_cons_of_pos (bne_iff_ne.mpr h)

variable {line more : List UInt8} {delta : ℕ}

theorem takeWhile_memory : (line ++ 0 :: more).takeWhile (· != 0) = textOf line := by
  induction line with
  | nil => rfl
  | cons byte line ih =>
    by_cases hbyte : byte = 0
    · subst hbyte
      rfl
    · rw [List.cons_append, List.takeWhile_cons_of_pos (p := (· != 0)) (bne_iff_ne.mpr hbyte), ih,
        textOf_cons_of_ne hbyte]

/-- The string ends where the memory holds zero. -/
theorem getD_eq_zero_iff {stop : ℕ} (h : stop ≤ (textOf line).length) :
    (line ++ 0 :: more).getD stop 0 = 0 ↔ stop = (textOf line).length := by
  induction line generalizing stop with
  | nil =>
    obtain rfl : stop = 0 := Nat.le_zero.mp h
    exact ⟨fun _ => rfl, fun _ => rfl⟩
  | cons byte line ih =>
    by_cases hbyte : byte = 0
    · subst hbyte
      obtain rfl : stop = 0 := Nat.le_zero.mp h
      exact ⟨fun _ => rfl, fun _ => rfl⟩
    · rw [textOf_cons_of_ne hbyte, List.length_cons] at h ⊢
      cases stop with
      | zero => simpa using hbyte
      | succ stop =>
        rw [List.cons_append, List.getD_cons_succ, ih (Nat.le_of_succ_le_succ h),
          Nat.add_right_cancel_iff]

/-- **Which lines are numbers.** Memory behind the line does not matter, and what follows a byte of
zero on the line does not either. -/
theorem readNumber_iff :
    readNumber (line ++ 0 :: more) = some delta ↔
      ∃ blank sign digits, Numeral (textOf line) delta blank sign digits := by
  rw [readNumber, strtoull, takeWhile_memory]
  set text := textOf line with htext
  constructor
  · intro h
    -- the numeral that `strtoull` finds, part by part
    obtain ⟨blank, hblank⟩ : ∃ blank, blank = text.takeWhile isSpace := ⟨_, rfl⟩
    obtain ⟨sign, hsign⟩ : ∃ sign, sign = signOf (text.drop blank.length) := ⟨_, rfl⟩
    obtain ⟨digits, hdigits⟩ : ∃ digits,
        digits = (text.drop (blank.length + sign.length)).takeWhile isDigit := ⟨_, rfl⟩
    rw [← hblank, ← hsign, ← hdigits] at h
    have hblanks : blank.length ≤ text.length := hblank ▸ (List.takeWhile_prefix isSpace).length_le
    have hsigns : sign.length ≤ (text.drop blank.length).length :=
      hsign ▸ (signOf_isPrefix _).length_le
    have hstop : digits.length ≤ (text.drop (blank.length + sign.length)).length :=
      hdigits ▸ (List.takeWhile_prefix isDigit).length_le
    rw [List.length_drop] at hsigns hstop
    by_cases hempty : digits = []
    · rw [if_pos hempty, if_neg (by simp)] at h
      cases h
    by_cases hlarge : decimalValue digits ≥ 2 ^ 64
    · rw [if_neg hempty, if_pos hlarge, if_neg (by simp)] at h
      cases h
    rw [if_neg hempty, if_neg hlarge] at h
    dsimp only at h
    split at h
    · -- the NUL that the code asks for stands behind the digits, so the line ends there
      rename_i hread
      rw [getD_eq_zero_iff (by rw [← htext]; omega), ← htext] at hread
      refine ⟨blank, sign, digits, ?_, ?_, ?_, ?_, hempty, Nat.lt_of_not_le hlarge,
        (Option.some.inj h).symm⟩
      · have hwhole := hread.2.2
        rw [hdigits, hsign, hblank] at hwhole ⊢
        exact append_takeWhile_eq hwhole
      · rw [hblank]
        exact fun byte hmem => List.mem_takeWhile_imp hmem
      · rw [hsign]
        exact signOf_cases _
      · rw [hdigits]
        exact fun byte hmem => List.mem_takeWhile_imp hmem
    · cases h
  · rintro ⟨blank, sign, digits, h⟩
    -- the blanks end where the sign or the digits begin
    have hrest : ∀ byte ∈ (sign ++ digits).head?, isSpace byte = false := by
      intro byte hhead
      rcases h.sign_eq with hsign | hsign | hsign <;> rw [hsign] at hhead
      · exact isSpace_eq_false_of_isDigit (h.isDigit_digits byte (List.mem_of_mem_head? hhead))
      · cases hhead
        rfl
      · cases hhead
        rfl
    have hblank : text.takeWhile isSpace = blank := by
      rw [h.text_eq]
      exact takeWhile_isSpace_append h.isSpace_blank hrest
    have hsign : signOf (text.drop blank.length) = sign := by
      rw [h.text_eq, List.drop_left]
      exact signOf_append h.sign_eq h.isDigit_digits
    have hdigits : (text.drop (blank.length + sign.length)).takeWhile isDigit = digits := by
      rw [h.text_eq, ← List.append_assoc, ← List.length_append, List.drop_left]
      exact List.takeWhile_eq_self_iff.mpr h.isDigit_digits
    have hlength : blank.length + sign.length + digits.length = text.length := by
      rw [h.text_eq, List.length_append, List.length_append, Nat.add_assoc]
    have hnonempty : 0 < digits.length := List.length_pos_iff.mpr h.nonempty
    rw [hblank, hsign, hdigits, if_neg h.nonempty, if_neg (Nat.not_le.mpr h.fits), if_pos,
      h.delta_eq]
    refine ⟨rfl, ?_, (getD_eq_zero_iff hlength.le).mpr hlength⟩
    dsimp only
    omega

/-- The C++ server's numbers are numbers of the C server, with the same value. -/
theorem readNumber_of_plainDecimal (h : TcpServer.plainDecimal line = some delta) :
    readNumber (line ++ 0 :: more) = some delta := by
  rw [TcpServer.plainDecimal] at h
  split at h
  · rename_i hplain
    obtain ⟨hne, hdigits, hfits⟩ := hplain
    have htext : textOf line = line := by
      refine List.takeWhile_eq_self_iff.mpr fun byte hmem => bne_iff_ne.mpr ?_
      rintro rfl
      exact absurd (hdigits 0 hmem) (by decide)
    refine readNumber_iff.mpr ⟨[], [], line, ?_⟩
    rw [htext]
    exact ⟨rfl, fun _ hmem => absurd hmem List.not_mem_nil, .inl rfl, hdigits, hne, hfits,
      (Option.some.inj h).symm⟩
  · cases h

/-- A line without blanks, signs and zero bytes is a number of both servers or of none. -/
theorem readNumber_eq_plainDecimal
    (h : ∀ byte ∈ line, isSpace byte = false ∧ byte ≠ 43 ∧ byte ≠ 45 ∧ byte ≠ 0) :
    readNumber (line ++ 0 :: more) = TcpServer.plainDecimal line := by
  have htext : textOf line = line :=
    List.takeWhile_eq_self_iff.mpr fun byte hmem => bne_iff_ne.mpr (h byte hmem).2.2.2
  rcases hplain : TcpServer.plainDecimal line with _ | delta
  · by_contra hne
    obtain ⟨delta, hread⟩ := Option.ne_none_iff_exists'.mp hne
    obtain ⟨blank, sign, digits, hnumeral⟩ := readNumber_iff.mp hread
    rw [htext] at hnumeral
    have hmem : ∀ byte ∈ blank ++ sign, byte ∈ line := by
      intro byte hbyte
      rw [hnumeral.text_eq, ← List.append_assoc]
      exact List.mem_append_left _ hbyte
    have hblank : blank = [] := by
      refine List.eq_nil_iff_forall_not_mem.mpr fun byte hbyte => ?_
      have hspace := (h byte (hmem byte (List.mem_append_left _ hbyte))).1
      rw [hnumeral.isSpace_blank byte hbyte] at hspace
      cases hspace
    have hsign : sign = [] := by
      rcases hnumeral.sign_eq with hsign | hsign | hsign
      · exact hsign
      · exact absurd rfl (h 43
          (hmem 43 (List.mem_append_right _ (hsign ▸ List.mem_singleton_self 43)))).2.1
      · exact absurd rfl
          (h 45 (hmem 45 (List.mem_append_right _ (hsign ▸ List.mem_singleton_self 45)))).2.2.1
    have hdigits : line = digits := by
      rw [hnumeral.text_eq, hblank, hsign]
      rfl
    rw [TcpServer.plainDecimal, if_pos ⟨hdigits ▸ hnumeral.nonempty,
      hdigits ▸ hnumeral.isDigit_digits, hdigits ▸ hnumeral.fits⟩] at hplain
    cases hplain
  · exact readNumber_of_plainDecimal hplain

/-- **The numbers of the two servers.** The C server takes a line for a number exactly if it is, up
to its first byte of zero, blanks, an optional sign and decimal digits whose value fits 64 bits, and
a minus sign negates modulo `2 ^ 64`; what follows in memory never matters. Every number of the C++
server is one of the C server, with the same value, and only on lines with a blank, a sign or a byte
of zero the two servers differ. -/
theorem numbers_compared (line more : List UInt8) :
    (∀ delta, readNumber (line ++ 0 :: more) = some delta ↔
      ∃ blank sign digits, Numeral (textOf line) delta blank sign digits) ∧
    (∀ delta, TcpServer.plainDecimal line = some delta →
      readNumber (line ++ 0 :: more) = some delta) ∧
    (readNumber (line ++ 0 :: more) ≠ TcpServer.plainDecimal line →
      TcpServer.plainDecimal line = none ∧
        ∃ byte ∈ line, isSpace byte = true ∨ byte = 43 ∨ byte = 45 ∨ byte = 0) := by
  refine ⟨fun _ => readNumber_iff, fun _ => readNumber_of_plainDecimal, fun hne => ?_⟩
  constructor
  · by_contra hplain
    obtain ⟨delta, hplain⟩ := Option.ne_none_iff_exists'.mp hplain
    exact hne ((readNumber_of_plainDecimal hplain).trans hplain.symm)
  · by_contra hclean
    refine hne (readNumber_eq_plainDecimal fun byte hmem => ?_)
    refine ⟨?_, fun h => hclean ⟨byte, hmem, .inr (.inl h)⟩,
      fun h => hclean ⟨byte, hmem, .inr (.inr (.inl h))⟩,
      fun h => hclean ⟨byte, hmem, .inr (.inr (.inr h))⟩⟩
    exact Bool.eq_false_iff.mpr fun h => hclean ⟨byte, hmem, .inl h⟩

/-- `-1` is the largest amount for the C server and no number for the C++ server. -/
example : readNumber [45, 49, 0] = some (2 ^ 64 - 1) ∧ TcpServer.plainDecimal [45, 49] = none := by
  decide

end Legacy

end HotCounter
