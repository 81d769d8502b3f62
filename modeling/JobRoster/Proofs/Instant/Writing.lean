import JobRoster.Instant.Printer
import JobRoster.Instant.Reader
import JobRoster.Proofs.Instant.Calendar

/-!
# Instants read back

What is written of an instant is read from left to right, each part by the step that is its counterpart. A step that
reads a number stops where the next mark stands, or after as many digits as there were to be; the year and the fraction
are followed by a mark that is no digit. In the end the date leads back to the day, since it is the date of one
(`Date.toDays_ofDays`), and the time of day to the second and the nanoseconds, be they those of a leap second.

Main statement: `read_write`.
-/

namespace JobRoster

/-! ### Numbers -/

/-- What a list of digits stands for, in the words of the standard library. -/
theorem Text.numberOf_eq_ofDigitChars {digits : List Char} (h : ∀ c ∈ digits, c.isDigit = true) :
    numberOf 10 digits = Nat.ofDigitChars 10 digits 0 := by
  suffices hfold : ∀ n, digits.foldl (fun n c => 10 * n + (digitValue? c).getD 0) n = Nat.ofDigitChars 10 digits n from
    hfold 0
  induction digits with
  | nil => exact fun _ => rfl
  | cons c cs ih =>
    obtain ⟨hc, hcs⟩ := List.forall_mem_cons.1 h
    intro n
    rw [List.foldl_cons, ih hcs, Nat.ofDigitChars_cons, digitValue?, if_pos hc, Option.getD_some]

section Padded

variable {width n : Nat} {c : Char}

theorem isDigit_of_mem_padded (h : c ∈ padded width n) : c.isDigit = true := by
  obtain h | h := List.mem_append.1 h
  · rw [(List.mem_replicate.1 h).2]
    rfl
  · exact Nat.isDigit_of_mem_toDigits (by omega) (by omega) h

theorem padded_ne_nil : padded width n ≠ [] := by
  simp [padded, Nat.toDigits_ne_nil]

theorem length_padded (hwidth : 0 < width) (h : n < 10 ^ width) : (padded width n).length = width := by
  have hlength := (Nat.length_toDigits_le_iff (b := 10) (by omega) hwidth).2 h
  rw [padded, List.length_append, List.length_replicate]
  omega

/-- Zeros in front change nothing. -/
theorem numberOf_padded (width n : Nat) : Text.numberOf 10 (padded width n) = n := by
  rw [Text.numberOf_eq_ofDigitChars fun c => isDigit_of_mem_padded, padded, Nat.ofDigitChars_append]
  have hzeros : ∀ zeros, Nat.ofDigitChars 10 (List.replicate zeros '0') 0 = 0 := by
    intro zeros
    induction zeros with
    | zero => rfl
    | succ zeros ih => rw [List.replicate_succ, Nat.ofDigitChars_cons]; exact ih
  rw [hzeros, Nat.ofDigitChars_toDigits (by omega) (by omega)]

end Padded

namespace Instant

/-! ### Steps -/

variable {α β : Type} {cs rest : List Char}

/-- What comes after a step starts from what the step has left. -/
theorem bind_of_eq_ok {step : Step α} {f : α → Step β} {a : α} (h : step cs = .ok (a, rest)) :
    (step >>= f) cs = f a rest := by
  simp only [bind, StateT.bind, h, Except.bind]

theorem get_eq : (get : Step (List Char)) cs = .ok (cs, cs) := rfl

theorem set_eq : (set rest : Step PUnit) cs = .ok ((), rest) := rfl

/-- Nothing is skipped where no blank stands. -/
theorem skipBlanks_eq (h : ∀ c ∈ cs.head?, Text.isBlank c = false) : skipBlanks cs = .ok ((), cs) := by
  have htrim : Text.trimStart cs = cs := by
    cases cs with
    | nil => rfl
    | cons c cs => exact List.dropWhile_cons_of_neg (by simp [h c rfl])
  exact congrArg (fun cs => Except.ok ((), cs)) htrim

theorem readChar_cons {c : Char} : readChar (c :: cs) = .ok (c, cs) := rfl

theorem readMark_cons {mark : Char} : readMark mark (mark :: cs) = .ok ((), cs) := by
  rw [readMark, bind_of_eq_ok readChar_cons, if_neg (not_not.2 rfl)]
  rfl

/-- Digits are taken as far as they go, or as far as the limit. -/
theorem readDigits_eq {limit : Option Nat} {digits : List Char} (hne : digits ≠ [])
    (htaken : limit.elim id List.take ((digits ++ rest).takeWhile Char.isDigit) = digits) :
    readDigits limit (digits ++ rest) = .ok (digits, rest) := by
  have hempty : digits.isEmpty = false := by simpa using hne
  unfold readDigits
  rw [bind_of_eq_ok get_eq]
  cases h : digits ++ rest with
  | nil => exact absurd (List.append_eq_nil_iff.1 h).1 hne
  | cons c cs =>
    rw [h] at htaken
    cases limit <;> dsimp only [Option.elim_none, Option.elim_some, id_eq] at htaken <;>
      simp only [htaken, hempty, Bool.false_eq_true, if_false]
    · rw [bind_of_eq_ok set_eq, ← h, List.drop_left]
      rfl
    · rw [bind_of_eq_ok set_eq, ← h, List.drop_left]
      rfl

theorem takeWhile_padded (width n : Nat) (rest : List Char) :
    (padded width n ++ rest).takeWhile Char.isDigit = padded width n ++ rest.takeWhile Char.isDigit :=
  List.takeWhile_append_of_pos fun _ => isDigit_of_mem_padded

/-- As many digits as the limit allows are taken, whatever follows. -/
theorem readDigits_padded {width n : Nat} (hwidth : 0 < width) (h : n < 10 ^ width) :
    readDigits (some width) (padded width n ++ rest) = .ok (padded width n, rest) := by
  refine readDigits_eq padded_ne_nil ?_
  rw [takeWhile_padded, Option.elim_some, List.take_left' (length_padded hwidth h)]

/-- All digits in front of a mark are taken. -/
theorem readDigits_padded_mark {limit : Option Nat} {width n : Nat} {mark : Char} (hmark : mark.isDigit = false)
    (hlimit : ∀ k ∈ limit, (padded width n).length ≤ k) :
    readDigits limit (padded width n ++ mark :: rest) = .ok (padded width n, mark :: rest) := by
  refine readDigits_eq padded_ne_nil ?_
  rw [takeWhile_padded, List.takeWhile_cons_of_neg (by simp [hmark]), List.append_nil]
  cases limit with
  | none => rfl
  | some k => exact List.take_of_length_le (hlimit k rfl)

theorem isDigit_head_padded {width n : Nat} : ∀ c ∈ (padded width n ++ rest).head?, c.isDigit = true := by
  intro c hc
  obtain ⟨d, ds, hpadded⟩ := List.exists_cons_of_ne_nil (padded_ne_nil)
  rw [hpadded] at hc
  cases hc
  exact isDigit_of_mem_padded (hpadded ▸ List.mem_cons_self)

theorem skipBlanks_padded {width n : Nat} :
    skipBlanks (padded width n ++ rest) = .ok ((), padded width n ++ rest) :=
  skipBlanks_eq fun c hc => Text.isBlank_of_isDigit (isDigit_head_padded c hc)

theorem readPart_padded {low high n : Nat} (hlow : low ≤ n) (hhigh : n ≤ high) (h : n < 100) :
    readPart low high (padded 2 n ++ rest) = .ok (n, rest) := by
  rw [readPart, bind_of_eq_ok skipBlanks_padded,
    bind_of_eq_ok (readDigits_padded (by omega) (by omega)), numberOf_padded, if_pos ⟨hlow, hhigh⟩]
  rfl

theorem readMarkedPart_padded {mark : Char} (hmark : Text.isBlank mark = false) {low high n : Nat} (hlow : low ≤ n)
    (hhigh : n ≤ high) (h : n < 100) :
    readMarkedPart mark low high (mark :: (padded 2 n ++ rest)) = .ok (n, rest) := by
  rw [readMarkedPart, bind_of_eq_ok (skipBlanks_eq (by rintro c ⟨⟩; exact hmark)), bind_of_eq_ok readMark_cons,
    readPart_padded hlow hhigh h]

theorem readSeparator_cons : readSeparator ('T' :: cs) = .ok ((), cs) := by
  rw [readSeparator, bind_of_eq_ok readChar_cons]
  rfl

/-- A year with a sign has as many digits as stand there. -/
theorem readYear_signed {sign : Char} (hsign : sign = '-' ∨ sign = '+') {size : Nat} (hsize : size ≤ 2147483647) :
    readYear (sign :: (padded 4 size ++ '-' :: rest)) = .ok (if sign = '-' then -size else size, '-' :: rest) := by
  have hblank : ∀ c ∈ (sign :: (padded 4 size ++ '-' :: rest)).head?, Text.isBlank c = false := by
    rintro c ⟨⟩
    obtain rfl | rfl := hsign <;> rfl
  have hdiscard : (discard readChar : Step PUnit) (sign :: (padded 4 size ++ '-' :: rest)) =
      .ok ((), padded 4 size ++ '-' :: rest) := rfl
  rw [readYear, bind_of_eq_ok (skipBlanks_eq hblank), bind_of_eq_ok get_eq]
  simp only [List.head?_cons, Option.some.injEq, if_pos hsign]
  rw [bind_of_eq_ok hdiscard, bind_of_eq_ok (readDigits_padded_mark (by rfl) (by rintro k ⟨⟩)), numberOf_padded, if_pos]
  · rfl
  · split <;> omega

/-- A year is read up to the mark behind it. -/
theorem readYear_writeYear {year : Int} (hlow : -2147483648 < year) (hhigh : year ≤ 2147483647) :
    readYear (Date.writeYear year ++ '-' :: rest) = .ok (year, '-' :: rest) := by
  unfold Date.writeYear
  split
  · next h =>
    have hunsigned : ¬ ((padded 4 year.toNat ++ '-' :: rest).head? = some '-' ∨
        (padded 4 year.toNat ++ '-' :: rest).head? = some '+') := by
      rintro (hsign | hsign) <;> cases isDigit_head_padded _ hsign
    rw [readYear, bind_of_eq_ok skipBlanks_padded, bind_of_eq_ok get_eq]
    simp only [if_neg hunsigned, if_neg fun hsign => hunsigned (.inl hsign)]
    rw [bind_of_eq_ok (readDigits_padded (by omega) (by omega)), numberOf_padded, Int.toNat_of_nonneg h.1,
      if_pos ⟨hlow.le, hhigh⟩]
    rfl
  · next h =>
    by_cases hneg : year < 0
    · rw [if_pos hneg, List.cons_append, readYear_signed (.inl rfl) (by omega), if_pos rfl, Int.ofNat_natAbs_of_nonpos,
        Int.neg_neg]
      omega
    · rw [if_neg hneg, List.cons_append, readYear_signed (.inr rfl) (by omega), if_neg (by decide),
        Int.natAbs_of_nonneg]
      omega

/-- A fraction with a width is read up to the mark behind it. -/
theorem readFraction_padded {width n nanos : Nat} (hwidth : 0 < width) (hle : width ≤ 9) (h : n < 10 ^ width)
    (hnanos : n * 10 ^ (9 - width) = nanos) :
    readFraction ('.' :: (padded width n ++ 'Z' :: rest)) = .ok (nanos, 'Z' :: rest) := by
  have hlength := length_padded hwidth h
  have hdrop : (modify (List.dropWhile Char.isDigit) : Step PUnit) ('Z' :: rest) = .ok ((), 'Z' :: rest) := rfl
  rw [readFraction, bind_of_eq_ok get_eq, List.head?_cons, if_pos rfl, bind_of_eq_ok readMark_cons,
    bind_of_eq_ok (readDigits_padded_mark (by rfl) (by rintro k ⟨⟩; omega)), bind_of_eq_ok hdrop, numberOf_padded,
    hlength, ← hnanos]
  rfl

/-- A fraction is read up to the mark behind it. -/
theorem readFraction_writeFraction {nanos : Nat} (h : nanos < 1000000000) :
    readFraction (writeFraction nanos ++ 'Z' :: rest) = .ok (nanos, 'Z' :: rest) := by
  unfold writeFraction
  split
  · next hzero =>
    rw [List.nil_append, readFraction, bind_of_eq_ok get_eq, if_neg (by simp), hzero]
    rfl
  · split
    · exact readFraction_padded (by omega) (by omega) (by omega) (by omega)
    · split
      · exact readFraction_padded (by omega) (by omega) (by omega) (by omega)
      · exact readFraction_padded (by omega) (by omega) (by omega) (by omega)

theorem readOffset_cons : readOffset ['Z'] = .ok (0, []) := rfl

/-! ### Instants -/

theorem year_bounds (t : Instant) : -262143 ≤ t.date.year ∧ t.date.year ≤ 262142 := by
  have := t.first_le
  have := t.le_last
  have hfirst : Date.toDays ⟨-262143, 1, 1⟩ = -96465292 := by decide
  have hlast : Date.toDays ⟨262143, 1, 1⟩ = 95026237 := by decide
  have hlow : -262143 ≤ t.date.year := by
    rw [date, Date.le_year_ofDays_iff, hfirst, dayNumber, perDay]
    omega
  have hhigh : ¬ 262143 ≤ t.date.year := by
    rw [date, Date.le_year_ofDays_iff, hlast, dayNumber, perDay]
    omega
  omega

/-- The parts of the civil time of an instant lead back to it. In a leap second the second is 60. -/
theorem ofLocal_parts (t : Instant) : ofLocal t.date (t.secondOfDay / 3600) (t.secondOfDay / 60 % 60)
    (t.secondOfDay % 60 + t.nanos / perSecond) (t.nanos % perSecond) 0 = .ok t := by
  have hnanos := t.nanos_lt
  have hleap := t.leap_at_end
  have hof : of? (t.date.toDays * perDay + (t.secondOfDay / 3600 * 3600 + t.secondOfDay / 60 % 60 * 60 +
      min (t.secondOfDay % 60 + t.nanos / perSecond) 59 : Nat) - 0) ((t.secondOfDay % 60 + t.nanos / perSecond -
        min (t.secondOfDay % 60 + t.nanos / perSecond) 59) * perSecond + t.nanos % perSecond) = some t := by
    rw [of?_eq_some_iff, date, Date.toDays_ofDays, secondOfDay, dayNumber, perDay, perSecond]
    omega
  rw [ofLocal, if_neg (by omega), if_neg (not_not.2 ⟨Date.valid_ofDays _, t.year_bounds⟩)]
  simp only [hof]

/-- **What is written of an instant names it**, also in a leap second. -/
theorem read_write (t : Instant) : read t.write = .ok t := by
  obtain ⟨hlow, hhigh⟩ := t.year_bounds
  obtain ⟨hmonth, hmonth', hday, hday'⟩ : t.date.Valid := Date.valid_ofDays _
  have hday'' : t.date.day ≤ 31 := hday'.trans (by unfold Date.daysInMonth; split <;> split <;> omega)
  have htime : t.secondOfDay < 86400 := by
    unfold secondOfDay perDay
    omega
  have hnanos := t.nanos_lt
  have hleap : t.nanos / perSecond ≤ 1 := by
    unfold perSecond
    omega
  have hblank : ∀ c ∈ (['Z'] : List Char).head?, Text.isBlank c = false := by
    rintro c ⟨⟩
    rfl
  have hmoment : readMoment t.write.toList = .ok (t, []) := by
    rw [write, String.toList_ofList, Date.write, writeTime]
    simp only [List.append_assoc, List.cons_append, List.nil_append]
    rw [readMoment, bind_of_eq_ok (readYear_writeYear (by omega) (by omega)),
      bind_of_eq_ok (readMarkedPart_padded (by rfl) hmonth hmonth' (by omega)),
      bind_of_eq_ok (readMarkedPart_padded (by rfl) hday hday'' (by omega)), bind_of_eq_ok readSeparator_cons,
      bind_of_eq_ok (readPart_padded (Nat.zero_le _) (by omega) (by omega)),
      bind_of_eq_ok (readMarkedPart_padded (by rfl) (Nat.zero_le _) (by omega) (by omega)),
      bind_of_eq_ok (readMarkedPart_padded (by rfl) (Nat.zero_le _) (by omega) (by omega)),
      bind_of_eq_ok (readFraction_writeFraction (by unfold perSecond; omega)), bind_of_eq_ok (skipBlanks_eq hblank),
      bind_of_eq_ok readOffset_cons, bind_of_eq_ok (skipBlanks_eq (by rintro c ⟨⟩)), bind_of_eq_ok get_eq,
      List.isEmpty_nil, if_pos rfl, t.ofLocal_parts]
    rfl
  rw [read, StateT.run', hmoment]
  rfl

end Instant

end JobRoster
