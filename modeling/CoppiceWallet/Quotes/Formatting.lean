import CoppiceWallet.Quotes.Trimming

/-! # From base units to a text and back -/

namespace CoppiceWallet.Quotes

open CoppiceWallet.Lib CoppiceWallet.Store

theorem mantissaText_plain (p : Numeral) :
    trim (mantissaText p) = mantissaText p ∧ lower (mantissaText p) = mantissaText p := by
  constructor
  · apply trim_eq_self
    intro c hc
    rcases mantissaText_chars p c hc with h | rfl
    · exact isWhitespace_digit h
    · decide
  · calc (mantissaText p).map Char.toLower
        = (mantissaText p).map id := List.map_congr_left fun c hc => by
          exact toLower_self (mantissaText_chars p c hc).toNat_lt
      _ = mantissaText p := List.map_id _

theorem mantissaText_notMem {p : Numeral} {c : Char} (h : ¬ isMantissaChar c) :
    c ∉ mantissaText p := fun hc => h (mantissaText_chars p c hc)

theorem mantissaText_ne_nil {p : Numeral} (h : p.digits ≠ []) : mantissaText p ≠ [] := by
  intro hnil
  obtain ⟨_,_,hdigits⟩ := mantissaText_parts p
  rw [hnil] at hdigits
  exact h hdigits.symm

theorem decimalStringToBaseUnits_plain {p : Numeral} (hsign : p.sign = .unsigned)
    (hexponent : p.exponent = none) (hdigits : p.digits ≠ []) (decimals : Int) :
    decimalStringToBaseUnits p.text decimals = mantissaToBaseUnits (mantissaText p) 0 decimals := by
  have htext : p.text = mantissaText p := by
    rw [text_eq,hsign,Numeral.exponentText_none hexponent,List.append_nil]
    rfl
  have hhead : ∀ c, ¬ isMantissaChar c → (mantissaText p).head? ≠ some c := fun c hc hhead =>
    mantissaText_notMem hc (List.mem_of_head? hhead)
  have hne := mantissaText_ne_nil hdigits
  have hsplit : split 'e' (mantissaText p) = [mantissaText p] :=
    split_of_not_mem (mantissaText_notMem (by simp [isMantissaChar]))
  simp only [decimalStringToBaseUnits,htext,(mantissaText_plain p).1,(mantissaText_plain p).2]
  rw [if_neg (hhead '+' (by simp [isMantissaChar])),
    if_neg (by simp [hhead '-' (by simp [isMantissaChar]),hne]),hsplit]
  simp only
  rw [if_neg hne]

theorem decimalStringToBaseUnits_fits {p : Numeral} (hsign : p.sign = .unsigned)
    (hexponent : p.exponent = none) (hdigits : p.digits ≠ []) {decimals : Nat}
    (hdecimals : decimals < 2 ^ 63) (hplaces : p.places ≤ decimals)
    (hfits : p.digits.length + (decimals - p.places) < 2 ^ 63) :
    decimalStringToBaseUnits p.text decimals =
      .ok (Nat.toDigits 10 (p.mantissa * 10 ^ (decimals - p.places))) := by
  have hshift : 0 ≤ shiftOf p 0 decimals := by
    unfold shiftOf int64
    omega
  have hfitsAt : FitsAt p 0 decimals := by
    unfold FitsAt
    omega
  have hpadding := paddingOf_eq (by omega) (by decide) (by omega) hshift
  rw [if_pos hfitsAt] at hpadding
  have hcount : paddingOf p 0 decimals = decimals - p.places := by omega
  rw [decimalStringToBaseUnits_plain hsign hexponent hdigits,mantissaToBaseUnits_numeral hdigits,
    if_pos hshift,padRight_digits hdigits,hcount]

theorem readBack {padded : Text} {n decimals : Nat} (hpadded : ∀ c ∈ padded, c.isDigit = true)
    (hn : digitsValue padded = n) (hpos : 0 < decimals) (hdecimals : decimals ≤ padded.length)
    (hlength : padded.length < 2 ^ 63) (hlead : decimals < padded.length ∨ n ≠ 0) :
    decimalStringToBaseUnits (swapTrimDecimal (padded.take (padded.length - decimals) ++
        '.' :: padded.drop (padded.length - decimals))) decimals =
      .ok (Nat.toDigits 10 n) := by
  let p : Numeral := ⟨.unsigned,padded.take (padded.length - decimals),
    some (padded.drop (padded.length - decimals)),none,
    fun c hc => hpadded c (List.mem_of_mem_take hc),
    fun cs hcs c hc => hpadded c (List.mem_of_mem_drop (by cases hcs; exact hc))⟩
  have hdigits : p.digits = padded := List.take_append_drop _ _
  have hplaces : p.places = decimals := by
    simp only [Numeral.places,p,Option.getD_some,List.length_drop]
    omega
  have hne : p.digits ≠ [] := by
    rw [hdigits,← List.length_pos_iff]
    omega
  have hmantissa : p.mantissa = n := by rw [Numeral.mantissa,hdigits,hn]
  have htext : p.text = mantissaText p := by
    rw [text_eq,Numeral.exponentText_none rfl,List.append_nil]
    rfl
  have htrim : p.text = trim (mantissaText p) := by rw [(mantissaText_plain p).1,htext]
  have hshown : swapTrimDecimal (mantissaText p) = (trimmed p).text :=
    swapTrimDecimal_plain htrim rfl rfl
  have hleft : (trimmed p).digits ≠ [] := by
    rw [trimmed_digits_ne_nil hne,hmantissa]
    rcases hlead with hlead | hlead
    · refine .inl ?_
      rw [← List.length_pos_iff]
      simp only [p,List.length_take]
      omega
    · exact .inr (.inr hlead)
  have hexponent : (trimmed p).exponent = none := by
    rw [trimmed_exponent]
    rfl
  obtain ⟨k,hzeros,hcount,_⟩ := trimmed_digits p
  have hlengths := congrArg List.length hzeros
  rw [hdigits,List.length_append,List.length_replicate] at hlengths
  have hvalue : n = (trimmed p).mantissa * 10 ^ k := by
    rw [← hmantissa,Numeral.mantissa,hzeros,digitsValue_zeros]
    rfl
  change decimalStringToBaseUnits (swapTrimDecimal (mantissaText p)) decimals = _
  have hk : decimals - (trimmed p).places = k := by omega
  rw [hshown,decimalStringToBaseUnits_fits (trimmed_sign p) hexponent hleft (by omega) (by omega)
    (by omega),hk,← hvalue]

theorem toDigits_isDigit (n : Nat) : ∀ c ∈ Nat.toDigits 10 n, c.isDigit = true := fun _ hc =>
  Nat.isDigit_of_mem_toDigits (by decide) (by decide) hc

theorem head_toDigits (n : Nat) : (Nat.toDigits 10 n).head? ≠ some '-' := by
  intro hhead
  exact absurd (toDigits_isDigit n '-' (List.mem_of_head? hhead)) (by decide)

theorem swapBaseUnitsToDecimal_digits {n decimals : Nat} (hpos : 0 < decimals) {padded : Text}
    (hpadded : padLeft (Nat.toDigits 10 n) (int64 (decimals + 1)) = padded) :
    swapBaseUnitsToDecimal (Nat.toDigits 10 n) decimals =
      if decimals ≤ padded.length then
        .ok (swapTrimDecimal (padded.take (padded.length - decimals) ++
          '.' :: padded.drop (padded.length - decimals)))
      else .error .range := by
  have hnegative : decide ((Nat.toDigits 10 n).head? = some '-') = false :=
    decide_eq_false (head_toDigits n)
  have hdecimals : ¬ (decimals : Int) ≤ 0 := by omega
  simp only [swapBaseUnitsToDecimal,hnegative,Bool.false_eq_true,if_false,if_neg hdecimals,hpadded]
  by_cases hle : decimals ≤ padded.length
  · have hcut : ((padded.length : Int) - decimals).toNat = padded.length - decimals := by omega
    have hwhole : substring padded 0 (padded.length - decimals) =
        .ok (padded.take (padded.length - decimals)) := by
      rw [substring,if_pos (by omega),hcut]
      rfl
    have hfraction : substring padded (padded.length - decimals) padded.length =
        .ok (padded.drop (padded.length - decimals)) := by
      rw [substring,if_pos (by omega),hcut]
      simp
    rw [if_pos hle,hwhole,hfraction]
    rfl
  · have hwhole : substring padded 0 (padded.length - decimals) = .error .range := by
      rw [substring,if_neg (by omega)]
    rw [if_neg hle,hwhole]
    rfl

theorem toDigits_roundTrip {n : Nat} (hn : (Nat.toDigits 10 n).length < 2 ^ 63) :
    decimalStringToBaseUnits (Nat.toDigits 10 n) 0 = .ok (Nat.toDigits 10 n) := by
  let p : Numeral := ⟨.unsigned,Nat.toDigits 10 n,none,none,toDigits_isDigit n,by simp⟩
  have htext : p.text = Nat.toDigits 10 n := List.append_nil _
  have hdigits : p.digits = Nat.toDigits 10 n := List.append_nil _
  have hmantissa : p.mantissa = n := by rw [Numeral.mantissa,hdigits,digitsValue_toDigits]
  have hne : p.digits ≠ [] := by
    rw [hdigits]
    exact Nat.toDigits_ne_nil
  have hread : decimalStringToBaseUnits p.text (0 : Nat) =
      .ok (Nat.toDigits 10 (p.mantissa * 10 ^ (0 - p.places))) :=
    decimalStringToBaseUnits_fits rfl rfl hne (by decide) (Nat.le_refl 0) (by rw [hdigits]; exact hn)
  rw [htext,hmantissa] at hread
  simpa using hread

theorem swapBaseUnitsToDecimal_roundTrip {n decimals : Nat}
    (hn : (Nat.toDigits 10 n).length < 2 ^ 63) (hdecimals : decimals < 2 ^ 63) :
    (swapBaseUnitsToDecimal (Nat.toDigits 10 n) decimals >>= fun text =>
        decimalStringToBaseUnits text decimals) = .ok (Nat.toDigits 10 n) ↔
      decimals + 1 < 2 ^ 63 ∨ (Nat.toDigits 10 n).length = decimals := by
  rcases Nat.eq_zero_or_pos decimals with rfl | hpos
  · have hwritten : swapBaseUnitsToDecimal (Nat.toDigits 10 n) (0 : Nat) =
        .ok (Nat.toDigits 10 n) := by
      simp [swapBaseUnitsToDecimal,head_toDigits]
    refine iff_of_true ?_ (.inl (by decide))
    rw [hwritten]
    exact toDigits_roundTrip hn
  · by_cases hroom : decimals + 1 < 2 ^ 63
    · refine iff_of_true ?_ (.inl hroom)
      have hwidth : int64 (decimals + 1) = decimals + 1 := by
        unfold int64
        omega
      have hpadded : padLeft (Nat.toDigits 10 n) (int64 (decimals + 1)) =
          List.replicate (decimals + 1 - (Nat.toDigits 10 n).length) '0' ++ Nat.toDigits 10 n := by
        have hcount : ((decimals : Int) + 1 - (Nat.toDigits 10 n).length).toNat =
            decimals + 1 - (Nat.toDigits 10 n).length := by omega
        rw [padLeft,hwidth,hcount]
      have hlength : (List.replicate (decimals + 1 - (Nat.toDigits 10 n).length) '0' ++
          Nat.toDigits 10 n).length = max (decimals + 1) (Nat.toDigits 10 n).length := by
        rw [List.length_append,List.length_replicate]
        omega
      have hdigits : ∀ c ∈ List.replicate (decimals + 1 - (Nat.toDigits 10 n).length) '0' ++
          Nat.toDigits 10 n, c.isDigit = true := by
        intro c hc
        rcases List.mem_append.mp hc with hc | hc
        · rw [(List.mem_replicate.mp hc).2]
          decide
        · exact toDigits_isDigit n c hc
      have hvalue := (digitsValue_zeros_append (decimals + 1 - (Nat.toDigits 10 n).length)
        (Nat.toDigits 10 n)).trans (digitsValue_toDigits n)
      rw [swapBaseUnitsToDecimal_digits hpos hpadded,if_pos (by omega)]
      simp only [bind,Except.bind]
      exact readBack hdigits hvalue hpos (by omega) (by omega) (.inl (by omega))
    · have hwidth : int64 (decimals + 1) = -2 ^ 63 := by
        unfold int64
        omega
      have hpadded : padLeft (Nat.toDigits 10 n) (int64 (decimals + 1)) = Nat.toDigits 10 n := by
        rw [padLeft,hwidth,Int.toNat_of_nonpos (by omega)]
        rfl
      rw [swapBaseUnitsToDecimal_digits hpos hpadded]
      by_cases hsame : (Nat.toDigits 10 n).length = decimals
      · refine iff_of_true ?_ (.inr hsame)
        have hne : n ≠ 0 := by
          rintro rfl
          rw [Nat.toDigits_zero] at hsame
          simp only [List.length_singleton] at hsame
          omega
        rw [if_pos hsame.ge]
        simp only [bind,Except.bind]
        exact readBack (toDigits_isDigit n) (digitsValue_toDigits n) hpos hsame.ge hn (.inr hne)
      · refine iff_of_false ?_ (not_or.mpr ⟨hroom,hsame⟩)
        rw [if_neg (by omega)]
        intro h
        simp only [bind,Except.bind,reduceCtorEq] at h

end CoppiceWallet.Quotes
