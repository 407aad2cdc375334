import CoppiceWallet.Zip321.Payments

/-! # Errors of the parser -/

namespace CoppiceWallet.Zip321

open CoppiceWallet.Lib CoppiceWallet.Store CoppiceWallet.Quotes

def OwnErrors {α : Type} (x : DartResult α) : Prop :=
  ∀ e, x = .error e → ∃ message, e = .zip321Parse message

section

variable {α β : Type}

theorem ownErrors_ok (a : α) : OwnErrors (.ok a : DartResult α) := by
  intro e h
  cases h

theorem ownErrors_parseError (message : String) : OwnErrors (parseError message : DartResult α) := by
  intro e h
  cases h
  exact ⟨message,rfl⟩

theorem OwnErrors.ite {p : Prop} [Decidable p] {x y : DartResult α} (hx : OwnErrors x)
    (hy : OwnErrors y) : OwnErrors (if p then x else y) := by
  split
  · exact hx
  · exact hy

theorem OwnErrors.bind {x : DartResult α} {f : α → DartResult β} (hx : OwnErrors x)
    (hf : ∀ a, x = .ok a → OwnErrors (f a)) : OwnErrors (x >>= f) := by
  intro e h
  rcases bind_error h with h | ⟨a,ha,h⟩
  · exact hx e h
  · exact hf a ha e h

theorem OwnErrors.map {x : DartResult α} (hx : OwnErrors x) (f : α → β) : OwnErrors (f <$> x) :=
  fun e h => hx e (map_error h)

theorem OwnErrors.mapM {f : α → DartResult β} (hf : ∀ a, OwnErrors (f a)) (xs : List α) :
    OwnErrors (xs.mapM f) := by
  intro e h
  obtain ⟨a,_,ha⟩ := mapM_error h
  exact hf a e ha

theorem OwnErrors.foldlM {f : β → α → DartResult β} (hf : ∀ b a, OwnErrors (f b a)) (xs : List α)
    (b : β) : OwnErrors (xs.foldlM f b) := by
  induction xs generalizing b with
  | nil => exact ownErrors_ok b
  | cons a xs ih =>
    rw [List.foldlM_cons]
    exact (hf b a).bind fun b' _ => ih b'

end

theorem validateAddress_errors (value : Text) : OwnErrors (validateAddress value) :=
  .ite (ownErrors_ok ()) (ownErrors_parseError _)

theorem validateAmount_errors (value : Text) : OwnErrors (validateAmount value) := by
  apply OwnErrors.ite (ownErrors_parseError _)
  apply OwnErrors.ite _ (ownErrors_parseError _)
  split
  · exact ownErrors_parseError _
  · exact .ite (ownErrors_parseError _) (ownErrors_ok ())

theorem validateBase64Url_errors (value : Text) (label : String) :
    OwnErrors (validateBase64Url value label) :=
  .ite (ownErrors_ok ()) (ownErrors_parseError _)

theorem base64UrlDecode_error {text : Text} {e : DartException} (h : base64UrlDecode text = .error e) :
    e = .format := by
  fun_induction base64UrlDecode text with
  | case8 a b c d rest _ _ _ _ _ _ _ _ _ ih =>
    cases hrest : base64UrlDecode rest with
    | ok bytes =>
      rw [hrest] at h
      cases h
    | error e' =>
      rw [hrest] at h
      cases h
      exact ih hrest
  | _ => cases h <;> rfl

theorem utf8Decode_error {bytes : List UInt8} {e : DartException} (h : utf8Decode bytes = .error e) :
    e = .format := by
  unfold utf8Decode at h
  split at h
  · cases h
    rfl
  · cases h

theorem parseMemo_errors (value : Text) : OwnErrors (parseMemo value) := by
  apply (validateBase64Url_errors value "memo").bind
  intro u _
  apply OwnErrors.bind
  · unfold decodeBase64UrlBytes
    split
    · exact ownErrors_parseError _
    · rename_i hformat
      intro e h
      exact absurd (base64UrlDecode_error h ▸ h) hformat
  · intro bytes _
    apply OwnErrors.ite (ownErrors_parseError _)
    split
    · exact ownErrors_ok _
    · exact ownErrors_ok _
    · rename_i hne hdecode
      exact absurd (utf8Decode_error hdecode) hne

theorem decodeQChar_errors (value : Text) (label : String) : OwnErrors (decodeQChar value label) := by
  unfold decodeQChar
  split
  · exact ownErrors_ok _
  · exact ownErrors_parseError _

theorem readValue_errors (field : Field) (value : Text) : OwnErrors (readValue field value) := by
  cases field with
  | address => exact (validateAddress_errors value).map _
  | amount => exact (validateAmount_errors value).map _
  | label => exact (decodeQChar_errors value "label").map _
  | message => exact (decodeQChar_errors value "message").map _
  | memo => exact (parseMemo_errors value).map _
  | reqAsset => exact (validateBase64Url_errors value "req-asset").map _

theorem parseParamName_errors (rawName : Text) : OwnErrors (parseParamName rawName) := by
  apply OwnErrors.ite (ownErrors_parseError _)
  split
  · exact .ite (ownErrors_ok _) (ownErrors_parseError _)
  · exact .ite (ownErrors_ok _) (ownErrors_parseError _)
  · exact ownErrors_parseError _

theorem parseParam_errors (state : ParseState) (rawParam : Text) :
    OwnErrors (parseParam state rawParam) := by
  apply OwnErrors.ite (ownErrors_ok _)
  apply (parseParamName_errors _).bind
  intro parsed _
  simp only
  split
  · exact .ite (ownErrors_parseError _) (ownErrors_ok _)
  · apply OwnErrors.ite (ownErrors_parseError _)
    exact (readValue_errors _ _).bind fun _ _ => ownErrors_ok _

theorem initialState_errors (addressPart : Text) : OwnErrors (initialState addressPart) :=
  .ite (ownErrors_ok _) ((validateAddress_errors _).bind fun _ _ => ownErrors_ok _)

theorem splitUri_errors (trimmed : Text) : OwnErrors (splitUri trimmed) :=
  .ite (ownErrors_parseError _) (.ite (ownErrors_parseError _)
    (.ite (ownErrors_parseError _) (ownErrors_ok _)))

theorem toPayment_errors (builder : Zip321PaymentBuilder) : OwnErrors (toPayment builder) := by
  unfold toPayment
  split
  · exact ownErrors_parseError _
  · exact .ite (ownErrors_parseError _) (.ite (ownErrors_parseError _) (ownErrors_ok _))

theorem parse_errors (input : Text) : OwnErrors (parse input) := by
  apply (splitUri_errors _).bind
  intro parts _
  rw [parseParts_eq]
  apply OwnErrors.bind
  · exact (initialState_errors _).bind fun _ _ => .foldlM parseParam_errors _ _
  · intro state hstate
    have hcollected := (collect_ok hstate).2
    apply OwnErrors.ite (ownErrors_parseError _)
    rw [hcollected.sortBuilders_eq,ok_bind]
    exact (OwnErrors.mapM (fun _ => toPayment_errors _) _).bind fun _ _ => ownErrors_ok _

end CoppiceWallet.Zip321
