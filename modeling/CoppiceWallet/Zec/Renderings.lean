import CoppiceWallet.Zec.Codec

/-! # Amounts as they are shown -/

namespace CoppiceWallet.Zec

open CoppiceWallet.Lib CoppiceWallet.Store CoppiceWallet.Quotes

theorem digitsValue_lt {cs : Text} (h : ∀ c ∈ cs, c.isDigit = true) :
    digitsValue cs < 10 ^ cs.length := by
  induction cs using List.reverseRecOn with
  | nil => simp [digitsValue]
  | append_singleton cs c ih =>
    have hc := (digitChar_of_isDigit (h c (by simp))).1
    have hcs := ih fun d hd => h d (by simp [hd])
    rw [digitsValue_concat,List.length_append,List.length_singleton,pow_succ]
    omega

/-- The first digits of eight, up to zeros at their end. -/
structure IsCut (remainder places : Nat) (fraction : Text) : Prop where
  digits : ∀ c ∈ fraction, c.isDigit = true
  length : fraction.length ≤ places
  value : digitsValue fraction * 10 ^ (places - fraction.length) = remainder / 10 ^ (8 - places)

variable {remainder places : Nat} {fraction : Text}

theorem isCut_zeros {k : Nat} (hk : fraction.length + k ≤ places) :
    IsCut remainder places (fraction ++ List.replicate k '0') ↔ IsCut remainder places fraction := by
  have hpow : 10 ^ k * 10 ^ (places - (fraction.length + k)) = 10 ^ (places - fraction.length) := by
    rw [← pow_add]
    congr 1
    omega
  have hvalue : digitsValue (fraction ++ List.replicate k '0') *
      10 ^ (places - (fraction ++ List.replicate k '0').length) =
      digitsValue fraction * 10 ^ (places - fraction.length) := by
    rw [digitsValue_zeros,List.length_append,List.length_replicate,Nat.mul_assoc,hpow]
  constructor
  · intro h
    have hdigits : ∀ c ∈ fraction, c.isDigit = true := fun c hc =>
      h.digits c (List.mem_append_left _ hc)
    exact ⟨hdigits,by omega,hvalue ▸ h.value⟩
  · intro h
    refine ⟨?_,by simpa using hk,hvalue.trans h.value⟩
    intro c hc
    rcases List.mem_append.mp hc with hc | hc
    · exact h.digits c hc
    · rw [(List.mem_replicate.mp hc).2]
      decide

theorem isCut_of_append_zeros {k : Nat}
    (h : IsCut remainder places (fraction ++ List.replicate k '0')) :
    IsCut remainder places fraction :=
  (isCut_zeros (by simpa using h.length)).mp h

theorem length_padded (h : remainder < 10 ^ 8) :
    (padLeft (Nat.toDigits 10 remainder) 8).length = 8 := by
  have hlength : (Nat.toDigits 10 remainder).length ≤ 8 :=
    (Nat.length_toDigits_le_iff (by decide) (by decide)).mpr h
  simp only [padLeft,List.length_append,List.length_replicate]
  omega

theorem isCut_padded (h : remainder < 10 ^ 8) :
    IsCut remainder 8 (padLeft (Nat.toDigits 10 remainder) 8) := by
  refine ⟨?_,(length_padded h).le,?_⟩
  · intro c hc
    rcases List.mem_append.mp hc with hc | hc
    · rw [(List.mem_replicate.mp hc).2]
      decide
    · exact toDigits_isDigit remainder c hc
  · rw [length_padded h,padLeft,digitsValue_zeros_append,digitsValue_toDigits]
    simp

theorem isCut_take (h : remainder < 10 ^ 8) (hplaces : places ≤ 8) :
    IsCut remainder places ((padLeft (Nat.toDigits 10 remainder) 8).take places) := by
  have hpadded := isCut_padded h
  have hlength := length_padded h
  generalize padLeft (Nat.toDigits 10 remainder) 8 = padded at *
  have htake : (padded.take places).length = places := by
    rw [List.length_take]
    omega
  have hdrop : (padded.drop places).length = 8 - places := by
    rw [List.length_drop]
    omega
  have hrest : digitsValue (padded.drop places) < 10 ^ (padded.drop places).length :=
    digitsValue_lt fun c hc => hpadded.digits c (List.mem_of_mem_drop hc)
  have hvalue := hpadded.value
  rw [hlength] at hvalue
  simp only [Nat.sub_self,pow_zero,Nat.mul_one,Nat.div_one] at hvalue
  rw [← List.take_append_drop places padded,digitsValue_append,hdrop] at hvalue
  refine ⟨fun c hc => hpadded.digits c (List.mem_of_mem_take hc),htake.le,?_⟩
  rw [htake,Nat.sub_self,pow_zero,Nat.mul_one,← hvalue,
    Nat.mul_add_div (Nat.pow_pos (by decide)),Nat.div_eq_of_lt (hdrop ▸ hrest),Nat.add_zero]

def shownText (whole : Nat) (fraction : Text) : Text :=
  if fraction = [] then Nat.toDigits 10 whole else Nat.toDigits 10 whole ++ '.' :: fraction

theorem zatoshiPerZec_eq : zatoshiPerZec = 10 ^ 8 := rfl

variable {maxFractionDigits minFractionDigits : Nat}

theorem formatZecAmountWith_nat (zatoshi : Nat) (hmin : minFractionDigits ≤ maxFractionDigits)
    (hmax : maxFractionDigits ≤ 8) (trim : Bool) :
    ∃ fraction, IsCut (zatoshi % zatoshiPerZec) maxFractionDigits fraction ∧
      formatZecAmountWith zatoshi minFractionDigits maxFractionDigits trim =
        some (shownText (zatoshi / zatoshiPerZec) fraction) := by
  have hlt : zatoshi % zatoshiPerZec < 10 ^ 8 := Nat.mod_lt _ (by decide)
  have hcut := isCut_take hlt hmax
  have htake : (if maxFractionDigits < 8 then
      (padLeft (Nat.toDigits 10 (zatoshi % zatoshiPerZec)) 8).take maxFractionDigits
      else padLeft (Nat.toDigits 10 (zatoshi % zatoshiPerZec)) 8) =
      (padLeft (Nat.toDigits 10 (zatoshi % zatoshiPerZec)) 8).take maxFractionDigits := by
    split
    · rfl
    · rw [List.take_of_length_le]
      rw [length_padded hlt]
      omega
  have hsign : ¬ (zatoshi : Int) < 0 := by omega
  have hassert : minFractionDigits ≤ 8 ∧ maxFractionDigits ≤ 8 ∧
      minFractionDigits ≤ maxFractionDigits := ⟨by omega,hmax,hmin⟩
  unfold formatZecAmountWith
  rw [if_pos hassert]
  simp only [Int.natAbs_natCast,htake,if_neg hsign]
  generalize (padLeft (Nat.toDigits 10 (zatoshi % zatoshiPerZec)) 8).take maxFractionDigits = cut
    at hcut ⊢
  have htrimmed : IsCut (zatoshi % zatoshiPerZec) maxFractionDigits
      (if trim = true then cut.rdropWhile fun c => decide (c = '0') else cut) := by
    split
    · obtain ⟨k,hk⟩ := exists_zeros cut
      rw [hk] at hcut
      exact isCut_of_append_zeros hcut
    · exact hcut
  generalize (if trim = true then cut.rdropWhile fun c => decide (c = '0') else cut) = trimmed
    at htrimmed ⊢
  refine ⟨_,?_,rfl⟩
  split
  · rename_i hlength
    apply (isCut_zeros _).mpr htrimmed
    omega
  · exact htrimmed

theorem withoutZeroFraction_shown {whole : Nat} (h : IsCut remainder places fraction) :
    ∃ fraction', IsCut remainder places fraction' ∧
      withoutZeroFraction (shownText whole fraction) = shownText whole fraction' := by
  have hwhole := toDigits_isDigit whole
  unfold shownText
  by_cases hnil : fraction = []
  · refine ⟨fraction,h,?_⟩
    rw [if_pos hnil,withoutZeroFraction,split_of_not_mem (point_notMem hwhole)]
  · rw [if_neg hnil,withoutZeroFraction,split_point hwhole h.digits]
    simp only [if_neg (head_toDigits whole)]
    split
    · rename_i hzeros
      have hreplicate : fraction = [] ++ List.replicate fraction.length '0' :=
        List.eq_replicate_iff.mpr ⟨rfl,hzeros.2.2.2⟩
      rw [hreplicate] at h
      exact ⟨[],isCut_of_append_zeros h,rfl⟩
    · exact ⟨fraction,h,by rw [if_neg hnil]⟩

/-- No point without digits after it. -/
def fractionPart (fraction : Text) : Option Text := if fraction = [] then none else some fraction

theorem fractionPart_digits (h : ∀ c ∈ fraction, c.isDigit = true) :
    ∀ cs ∈ fractionPart fraction, ∀ c ∈ cs, c.isDigit = true := by
  intro cs hcs
  unfold fractionPart at hcs
  split at hcs
  · cases hcs
  · cases hcs
    exact h

def shownNumeral (sign : Sign) (whole : Nat) (h : IsCut remainder places fraction) : Numeral :=
  ⟨sign,Nat.toDigits 10 whole,fractionPart fraction,none,toDigits_isDigit whole,
    fractionPart_digits h.digits⟩

variable (sign : Sign) (whole : Nat) (h : IsCut remainder places fraction)
include h

theorem shownNumeral_fraction : (shownNumeral sign whole h).fraction.getD [] = fraction := by
  simp only [shownNumeral,fractionPart]
  split
  · rename_i hnil
    exact hnil.symm
  · rfl

theorem shownNumeral_text :
    (shownNumeral sign whole h).text = sign.text ++ shownText whole fraction := by
  by_cases hnil : fraction = []
  · simp [shownNumeral,fractionPart,Numeral.text,Numeral.fractionText,Numeral.exponentText,
      shownText,hnil]
  · simp [shownNumeral,fractionPart,Numeral.text,Numeral.fractionText,Numeral.exponentText,
      shownText,hnil]

theorem shownNumeral_places : (shownNumeral sign whole h).places = fraction.length := by
  rw [Numeral.places,shownNumeral_fraction]

theorem shownNumeral_digits : (shownNumeral sign whole h).digits ≠ [] := by
  intro hnil
  have hpos : 0 < (Nat.toDigits 10 whole).length := Nat.length_toDigits_pos
  have hwhole : Nat.toDigits 10 whole = [] := (List.append_eq_nil_iff.mp hnil).1
  rw [hwhole] at hpos
  cases hpos

theorem shownNumeral_mantissa (hplaces : places ≤ 8) :
    (shownNumeral sign whole h).mantissa * 10 ^ (8 - fraction.length) =
      whole * 10 ^ 8 + remainder / 10 ^ (8 - places) * 10 ^ (8 - places) := by
  have hlength := h.length
  have hwhole : 10 ^ fraction.length * 10 ^ (8 - fraction.length) = 10 ^ 8 := by
    rw [← pow_add]
    congr 1
    omega
  have hunit : 10 ^ (places - fraction.length) * 10 ^ (8 - places) = 10 ^ (8 - fraction.length) := by
    rw [← pow_add]
    congr 1
    omega
  have hfraction : digitsValue fraction * 10 ^ (8 - fraction.length) =
      remainder / 10 ^ (8 - places) * 10 ^ (8 - places) := by
    rw [← hunit,← Nat.mul_assoc,h.value]
  rw [Numeral.mantissa,Numeral.digits,shownNumeral_fraction,digitsValue_append,← hfraction,← hwhole]
  simp only [shownNumeral,digitsValue_toDigits]
  ring

theorem shownNumeral_floor (hplaces : places ≤ 8) :
    (shownNumeral sign whole h).mantissa * 10 ^ (8 - fraction.length) ≤
        whole * 10 ^ 8 + remainder ∧
      whole * 10 ^ 8 + remainder <
        ((shownNumeral sign whole h).mantissa + 1) * 10 ^ (8 - fraction.length) := by
  have hlength := h.length
  have hle : 10 ^ (8 - places) ≤ 10 ^ (8 - fraction.length) :=
    Nat.pow_le_pow_right (by decide) (by omega)
  have hdiv := Nat.div_add_mod remainder (10 ^ (8 - places))
  have hmod := Nat.mod_lt remainder (Nat.pow_pos (n := 8 - places) (by decide : 0 < 10))
  rw [Nat.mul_comm] at hdiv
  rw [Nat.add_mul,Nat.one_mul,shownNumeral_mantissa sign whole h hplaces]
  omega

omit h
variable {sign}

variable {zatoshi : Nat}

theorem shownNumeral_exact (h : IsCut (zatoshi % zatoshiPerZec) 8 fraction) :
    (shownNumeral sign (zatoshi / zatoshiPerZec) h).mantissa * 10 ^ (8 - fraction.length) =
      zatoshi := by
  rw [shownNumeral_mantissa _ _ h (by decide),Nat.sub_self,pow_zero,Nat.div_one,Nat.mul_one,
    ← zatoshiPerZec_eq]
  exact Nat.div_add_mod' zatoshi zatoshiPerZec

/-- A text for an amount, which it says up to one unit of its last digit. -/
def ShowsFloor (text : Text) (zatoshi : Nat) : Prop :=
  ∃ (p : Numeral) (v : ℚ), p.text = text ∧ p.sign ≠ .minus ∧ p.exponent = none ∧
    p.value = some v ∧ v ≤ zatoshi / 10 ^ 8 ∧ zatoshi / 10 ^ 8 < v + (10 : ℚ) ^ (-p.places : ℤ)

/-- A text that says only what the amount is below. -/
def ShowsBound (text : Text) (zatoshi : Nat) : Prop :=
  ∃ (bound : Text) (v : ℚ), text = '<' :: bound ∧ Denotes bound v ∧ (zatoshi : ℚ) / 10 ^ 8 < v

theorem shownNumeral_value (hsign : sign ≠ .minus) (h : IsCut remainder places fraction) :
    (shownNumeral sign whole h).value =
      some ((shownNumeral sign whole h).mantissa * (10 : ℚ) ^ (-fraction.length : ℤ)) := by
  have hfactor : (shownNumeral sign whole h).sign.factor = 1 := factor_eq_one hsign
  have hexponent : (shownNumeral sign whole h).exponentValue = some 0 := rfl
  rw [Numeral.value,if_neg (shownNumeral_digits sign whole h),hexponent,hfactor,shownNumeral_places]
  simp

theorem showsFloor_shown (hsign : sign ≠ .minus) (hplaces : places ≤ 8)
    (h : IsCut (zatoshi % zatoshiPerZec) places fraction) :
    ShowsFloor (sign.text ++ shownText (zatoshi / zatoshiPerZec) fraction) zatoshi := by
  have hlength := h.length
  have hfloor := shownNumeral_floor sign (zatoshi / zatoshiPerZec) h hplaces
  have hz : zatoshi / zatoshiPerZec * 10 ^ 8 + zatoshi % zatoshiPerZec = zatoshi :=
    Nat.div_add_mod' zatoshi zatoshiPerZec
  rw [hz] at hfloor
  have hle' : (((shownNumeral sign (zatoshi / zatoshiPerZec) h).mantissa *
      10 ^ (8 - fraction.length) : ℕ) : ℚ) ≤ zatoshi := Nat.cast_le.mpr hfloor.1
  have hlt' : (zatoshi : ℚ) < (((shownNumeral sign (zatoshi / zatoshiPerZec) h).mantissa + 1) *
      10 ^ (8 - fraction.length) : ℕ) := Nat.cast_lt.mpr hfloor.2
  rw [cast_mantissa (by omega)] at hle' hlt'
  have hpow : (0 : ℚ) < 10 ^ 8 := by norm_num
  refine ⟨shownNumeral sign _ h,_,shownNumeral_text _ _ h,hsign,rfl,shownNumeral_value _ hsign h,
    ?_,?_⟩
  · rwa [le_div_iff₀ hpow]
  · rw [div_lt_iff₀ hpow,shownNumeral_places]
    push_cast at hlt'
    rwa [add_mul,one_mul] at hlt'

theorem amountText_showsFloor {amount : ZecAmountPretty} (hzatoshi : amount.zatoshi = zatoshi)
    (hoverride : amount.amountTextOverride = none)
    (hmin : amount.minFractionDigits ≤ amount.maxFractionDigits) (hmax : amount.maxFractionDigits ≤ 8) :
    ∃ text, amount.amountText = some text ∧ ShowsFloor text zatoshi := by
  obtain ⟨fraction,hcut,htext⟩ := formatZecAmountWith_nat zatoshi hmin hmax
    amount.trimTrailingZeros
  have hhide : ∃ fraction', IsCut (zatoshi % zatoshiPerZec) amount.maxFractionDigits fraction' ∧
      (if amount.hideZeroFraction = true then
        withoutZeroFraction (shownText (zatoshi / zatoshiPerZec) fraction)
        else shownText (zatoshi / zatoshiPerZec) fraction) =
      shownText (zatoshi / zatoshiPerZec) fraction' := by
    split
    · exact withoutZeroFraction_shown hcut
    · exact ⟨fraction,hcut,rfl⟩
  obtain ⟨fraction',hcut',hshown⟩ := hhide
  simp only [ZecAmountPretty.amountText,hoverride,hzatoshi,htext,Option.map_some,hshown]
  split
  · have hplus : Sign.plus ≠ .minus := by decide
    exact ⟨_,rfl,showsFloor_shown hplus hmax hcut'⟩
  · have hunsigned : Sign.unsigned ≠ .minus := by decide
    exact ⟨_,rfl,showsFloor_shown hunsigned hmax hcut'⟩

theorem adaptiveFractionDigits_range (h : minFractionDigits ≤ maxFractionDigits)
    (absZatoshi : Nat) :
    minFractionDigits ≤ adaptiveFractionDigits absZatoshi minFractionDigits maxFractionDigits ∧
      adaptiveFractionDigits absZatoshi minFractionDigits maxFractionDigits ≤ maxFractionDigits := by
  unfold adaptiveFractionDigits
  generalize (Nat.toDigits 10 (absZatoshi / zatoshiPerZec)).length = integerDigits
  simp only
  constructor <;> split <;> split <;> omega

theorem formatZecAmountWith_unit (hmax : maxFractionDigits ≤ 8) :
    ∃ bound, formatZecAmountWith (zatoshiUnitForFractionDigits maxFractionDigits) maxFractionDigits
        maxFractionDigits true = some bound ∧
      Denotes bound (zatoshiUnitForFractionDigits maxFractionDigits / 10 ^ 8) := by
  generalize hunit : zatoshiUnitForFractionDigits maxFractionDigits = unit
  obtain ⟨fraction,hcut,htext⟩ := formatZecAmountWith_nat unit le_rfl hmax true
  have hlength := hcut.length
  have hpow : 10 ^ (8 - maxFractionDigits) = unit := hunit
  have hdvd : unit ∣ unit % zatoshiPerZec := by
    apply (Nat.dvd_mod_iff _).mpr dvd_rfl
    rw [← hpow,zatoshiPerZec_eq]
    exact Nat.pow_dvd_pow 10 (by omega)
  have hmantissa := shownNumeral_mantissa .unsigned (unit / zatoshiPerZec) hcut hmax
  rw [hpow,Nat.div_mul_cancel hdvd,← zatoshiPerZec_eq,Nat.div_add_mod'] at hmantissa
  have hcast := congrArg (Nat.cast (R := ℚ)) hmantissa
  rw [cast_mantissa (by omega)] at hcast
  have hunsigned : Sign.unsigned ≠ .minus := by decide
  refine ⟨_,htext,shownNumeral .unsigned _ hcut,shownNumeral_text _ _ hcut,?_⟩
  rw [shownNumeral_value _ hunsigned hcut,← hcast,mul_div_cancel_right₀ _ (by norm_num)]

theorem compactBalancePretty_shows (hmin : minFractionDigits ≤ maxFractionDigits)
    (hmax : maxFractionDigits ≤ 8) (hideZeroFraction : Bool) : ∃ amount text,
      compactBalancePretty zatoshi minFractionDigits maxFractionDigits hideZeroFraction = some amount ∧
      amount.amountText = some text ∧ (ShowsFloor text zatoshi ∨ ShowsBound text zatoshi) := by
  have hassert : minFractionDigits ≤ 8 ∧ maxFractionDigits ≤ 8 ∧
      minFractionDigits ≤ maxFractionDigits := ⟨by omega,hmax,hmin⟩
  simp only [compactBalancePretty,if_pos hassert,Int.natAbs_natCast]
  split
  · rename_i hsmall
    obtain ⟨bound,hbound,hdenotes⟩ := formatZecAmountWith_unit hmax
    have hsign : ¬ (zatoshi : Int) < 0 := by omega
    have hlt : (zatoshi : ℚ) < zatoshiUnitForFractionDigits maxFractionDigits :=
      Nat.cast_lt.mpr hsmall.2
    refine ⟨_,_,by rw [hbound]; rfl,rfl,.inr ⟨bound,_,?_,hdenotes,?_⟩⟩
    · rw [if_neg hsign]
      rfl
    · exact div_lt_div_of_pos_right hlt (by norm_num)
  · obtain ⟨hlow,hhigh⟩ := adaptiveFractionDigits_range hmin zatoshi
    generalize adaptiveFractionDigits zatoshi minFractionDigits maxFractionDigits = fractionDigits
      at hlow hhigh
    have hzatoshi : (pretty zatoshi minFractionDigits fractionDigits false hideZeroFraction).zatoshi =
        zatoshi := rfl
    obtain ⟨text,htext,hfloor⟩ := amountText_showsFloor hzatoshi rfl hlow (hhigh.trans hmax)
    exact ⟨_,text,rfl,htext,.inl hfloor⟩

theorem activity_shows (zatoshi : Nat) (signed : Bool) :
    ∃ text, (activity zatoshi signed).amountText = some text ∧ ShowsFloor text zatoshi := by
  have hzatoshi : (activity zatoshi signed).zatoshi = zatoshi := by
    simp [activity]
  have hmax : (activity zatoshi signed).maxFractionDigits ≤ 8 := by
    simp only [activity]
    split <;> omega
  exact amountText_showsFloor hzatoshi rfl (Nat.zero_le _) hmax

theorem formatZecAmount_roundTrip (zatoshi : Nat) (h : minFractionDigits ≤ 8) :
    ∃ text, formatZecAmount zatoshi minFractionDigits = some text ∧
      parseZecAmount text = some zatoshi := by
  obtain ⟨fraction,hcut,htext⟩ := formatZecAmountWith_nat zatoshi h le_rfl true
  have hlength := hcut.length
  have hplaces := shownNumeral_places .unsigned (zatoshi / zatoshiPerZec) hcut
  have hplain : IsPlain (shownNumeral .unsigned (zatoshi / zatoshiPerZec) hcut) :=
    ⟨rfl,rfl,by omega⟩
  have hshown := shownNumeral_text .unsigned (zatoshi / zatoshiPerZec) hcut
  have htrim : trim (shownText (zatoshi / zatoshiPerZec) fraction) =
      shownText (zatoshi / zatoshiPerZec) fraction := by
    have hmantissa := (mantissaText_plain (shownNumeral .unsigned (zatoshi / zatoshiPerZec) hcut)).1
    rwa [← hplain.text_eq,hshown] at hmantissa
  refine ⟨_,htext,?_⟩
  rw [parseZecAmount_plain hplain (shownNumeral_digits _ _ hcut) (hshown.trans htrim.symm),hplaces,
    shownNumeral_exact]

theorem parseZecAmount_exact {input : Text} {n : Nat} : parseZecAmount input = some n ↔
    ∃ (p : Numeral) (v : ℚ), IsPlain p ∧ p.text = trim input ∧ p.value = some v ∧
      (n : ℚ) = v * 10 ^ 8 := by
  rw [parseZecAmount_iff]
  constructor
  · intro h
    obtain ⟨p,hplain,hdigits,htext,hn⟩ := h
    refine ⟨p,_,hplain,htext,hplain.value_eq hdigits,?_⟩
    rw [hn]
    exact cast_mantissa hplain.places
  · intro h
    obtain ⟨p,v,hplain,htext,hvalue,hn⟩ := h
    have hdigits : p.digits ≠ [] := by
      intro hnil
      simp [Numeral.value,hnil] at hvalue
    rw [hplain.value_eq hdigits] at hvalue
    have hv := (Option.some.inj hvalue).symm
    rw [hv,← cast_mantissa hplain.places] at hn
    exact ⟨p,hplain,hdigits,htext,Nat.cast_injective hn⟩

theorem parseZecAmount_defined {input : Text} : parseZecAmount input ≠ none ↔
    ∃ p, IsPlain p ∧ p.digits ≠ [] ∧ p.text = trim input := by
  constructor
  · intro h
    obtain ⟨n,hn⟩ := Option.ne_none_iff_exists'.mp h
    exact parseZecAmount_some hn
  · intro h
    obtain ⟨p,hplain,hdigits,htext⟩ := h
    rw [parseZecAmount_plain hplain hdigits htext]
    exact Option.some_ne_none _

/-- An amount is read back from its text, what is read is what the text says, what is typed is read
once it has a digit, and what is shown says the amount up to its last digit. -/
theorem zecAmountText_exact :
    (∀ zatoshi minFractionDigits : Nat, minFractionDigits ≤ 8 →
      ∃ text, formatZecAmount zatoshi minFractionDigits = some text ∧
        parseZecAmount text = some zatoshi) ∧
    (∀ input, parseZecAmount input ≠ none ↔
      ∃ p, IsPlain p ∧ p.digits ≠ [] ∧ p.text = trim input) ∧
    (∀ input n, parseZecAmount input = some n ↔ ∃ (p : Numeral) (v : ℚ), IsPlain p ∧
      p.text = trim input ∧ p.value = some v ∧ (n : ℚ) = v * 10 ^ 8) ∧
    (∀ edits : List Text, edits.foldl formatEditUpdate [] = [] ∨
      edits.foldl formatEditUpdate [] = ['.'] ∨
      (parseZecAmount (edits.foldl formatEditUpdate [])).isSome) ∧
    (∀ (amount : ZecAmountPretty) (zatoshi : Nat), amount.zatoshi = zatoshi →
      amount.amountTextOverride = none → amount.minFractionDigits ≤ amount.maxFractionDigits →
      amount.maxFractionDigits ≤ 8 →
      ∃ text, amount.amountText = some text ∧ ShowsFloor text zatoshi) ∧
    (∀ (zatoshi minFractionDigits maxFractionDigits : Nat) (hideZeroFraction : Bool),
      minFractionDigits ≤ maxFractionDigits → maxFractionDigits ≤ 8 →
      ∃ amount text, compactBalancePretty zatoshi minFractionDigits maxFractionDigits
          hideZeroFraction = some amount ∧
        amount.amountText = some text ∧ (ShowsFloor text zatoshi ∨ ShowsBound text zatoshi)) ∧
    (∀ zatoshi : Nat, ∃ amount text, compactBalance zatoshi = some amount ∧
      amount.amountText = some text ∧ (ShowsFloor text zatoshi ∨ ShowsBound text zatoshi)) ∧
    ∀ (zatoshi : Nat) (signed : Bool),
      ∃ text, (activity zatoshi signed).amountText = some text ∧ ShowsFloor text zatoshi :=
  ⟨fun zatoshi _ => formatZecAmount_roundTrip zatoshi,fun _ => parseZecAmount_defined,
    fun _ _ => parseZecAmount_exact,fun edits => isTyped_cases (edits_isTyped edits),
    fun _ _ => amountText_showsFloor,
    fun _ _ _ hideZeroFraction hmin hmax => compactBalancePretty_shows hmin hmax hideZeroFraction,
    fun _ => compactBalancePretty_shows (by decide) (by decide) true,activity_shows⟩

/-- Just under ten, which is shown with six digits after the point. -/
theorem zecAmountText_exact_underTen :
    (∃ text, formatZecAmount 999999999 2 = some text ∧ parseZecAmount text = some 999999999) ∧
    ∃ text, (pretty 999999999 2 6 false true).amountText = some text ∧
      ShowsFloor text 999999999 ∧ text = ['9','.','9','9','9','9','9','9'] :=
  ⟨zecAmountText_exact.1 999999999 2 (by decide),
    have h := zecAmountText_exact.2.2.2.2.1 (pretty 999999999 2 6 false true) 999999999 rfl rfl
      (by decide) (by decide)
    h.imp fun _ hshown => ⟨hshown.1,hshown.2,(Option.some.inj (hshown.1.symm.trans (by decide)))⟩⟩

end CoppiceWallet.Zec
