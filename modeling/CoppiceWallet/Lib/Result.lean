import Mathlib.Data.List.Forall2
import Mathlib.Tactic.Basic

/-!
# Programs that return `Except`

What a successful run of a compound program says about its parts.
-/

namespace CoppiceWallet.Lib

variable {ε α β : Type}

theorem ok_bind (a : α) (f : α → Except ε β) : (Except.ok a >>= f) = f a := rfl

variable {x : Except ε α} {f : α → Except ε β}

theorem bind_ok {b : β} (h : (x >>= f) = .ok b) : ∃ a, x = .ok a ∧ f a = .ok b := by
  cases x with
  | error e => cases h
  | ok a => exact ⟨a,rfl,h⟩

theorem bind_ok_congr {g : α → Except ε β} (h : ∀ a, x = .ok a → f a = g a) :
    (x >>= f) = (x >>= g) := by
  cases x with
  | error e => rfl
  | ok a => exact h a rfl

theorem map_ok {f : α → β} {b : β} (h : f <$> x = .ok b) : ∃ a, x = .ok a ∧ f a = b := by
  cases x with
  | error e => cases h
  | ok a => exact ⟨a,rfl,Except.ok.inj h⟩

theorem bind_error {e : ε} (h : (x >>= f) = .error e) :
    x = .error e ∨ ∃ a, x = .ok a ∧ f a = .error e := by
  cases x with
  | error e' =>
    cases h
    exact .inl rfl
  | ok a => exact .inr ⟨a,rfl,h⟩

theorem map_error {f : α → β} {e : ε} (h : f <$> x = .error e) : x = .error e := by
  cases x with
  | error e' =>
    cases h
    rfl
  | ok a => cases h

variable {xs : List α}

theorem mapM_error {e : ε} (h : xs.mapM f = .error e) : ∃ x ∈ xs, f x = .error e := by
  induction xs with
  | nil => cases h
  | cons x xs ih =>
    rw [List.mapM_cons] at h
    rcases bind_error h with hx | ⟨y,_,h⟩
    · exact ⟨x,List.mem_cons_self,hx⟩
    · rcases bind_error h with htail | ⟨ys,_,h⟩
      · obtain ⟨z,hz,hfz⟩ := ih htail
        exact ⟨z,List.mem_cons_of_mem _ hz,hfz⟩
      · cases h

theorem mapM_ok {ys : List β} (h : xs.mapM f = .ok ys) :
    List.Forall₂ (fun x y => f x = .ok y) xs ys := by
  induction xs generalizing ys with
  | nil =>
    cases h
    exact .nil
  | cons x xs ih =>
    rw [List.mapM_cons] at h
    obtain ⟨y,hy,h⟩ := bind_ok h
    obtain ⟨zs,hzs,h⟩ := bind_ok h
    cases h
    exact .cons hy (ih hzs)

theorem mapM_exists {R : α → β → Prop} (h : ∀ x ∈ xs, ∃ y, f x = .ok y ∧ R x y) :
    ∃ ys, xs.mapM f = .ok ys ∧ List.Forall₂ R xs ys := by
  induction xs with
  | nil => exact ⟨[],rfl,.nil⟩
  | cons x xs ih =>
    obtain ⟨y,hy,hxy⟩ := h x List.mem_cons_self
    obtain ⟨ys,hys,hxys⟩ := ih fun z hz => h z (List.mem_cons_of_mem _ hz)
    refine ⟨y :: ys,?_,.cons hxy hxys⟩
    rw [List.mapM_cons,hy,hys]
    rfl

theorem mapM_congr {g : α → Except ε β} (h : ∀ x ∈ xs, f x = g x) : xs.mapM f = xs.mapM g := by
  induction xs with
  | nil => rfl
  | cons x xs ih =>
    rw [List.mapM_cons,List.mapM_cons,h x (by simp),ih (fun y hy => h y (by simp [hy]))]

theorem mapM_pure {g : α → β} (h : ∀ x ∈ xs, f x = .ok (g x)) : xs.mapM f = .ok (xs.map g) := by
  induction xs with
  | nil => rfl
  | cons x xs ih =>
    rw [List.mapM_cons,h x (by simp),ih (fun y hy => h y (by simp [hy]))]
    rfl

theorem foldlM_ok_mem {f : β → α → Except ε β} {b c : β} (h : xs.foldlM f b = .ok c) {x : α}
    (hx : x ∈ xs) : ∃ d d', f d x = .ok d' := by
  induction xs generalizing b with
  | nil => cases hx
  | cons y xs ih =>
    rw [List.foldlM_cons] at h
    obtain ⟨d,hd,h⟩ := bind_ok h
    rcases List.mem_cons.mp hx with rfl | hx
    · exact ⟨b,d,hd⟩
    · exact ih h hx

theorem foldlM_invariant {P : β → Prop} {f : β → α → Except ε β} {b c : β}
    (h : xs.foldlM f b = .ok c) (hb : P b) (hf : ∀ d d' x, x ∈ xs → P d → f d x = .ok d' → P d') :
    P c := by
  induction xs generalizing b with
  | nil =>
    cases h
    exact hb
  | cons x xs ih =>
    rw [List.foldlM_cons] at h
    obtain ⟨d,hd,h⟩ := bind_ok h
    exact ih h (hf b d x List.mem_cons_self hb hd) fun d d' y hy =>
      hf d d' y (List.mem_cons_of_mem _ hy)

theorem mapM_append_ok {xs' : List α} {zs : List β} : (xs ++ xs').mapM f = .ok zs ↔
      ∃ ys ys', xs.mapM f = .ok ys ∧ xs'.mapM f = .ok ys' ∧ zs = ys ++ ys' := by
  rw [List.mapM_append]
  constructor
  · intro h
    obtain ⟨ys,hys,h⟩ := bind_ok h
    obtain ⟨ys',hys',h⟩ := bind_ok h
    cases h
    exact ⟨ys,ys',hys,hys',rfl⟩
  · rintro ⟨ys,ys',hys,hys',rfl⟩
    rw [hys,hys']
    rfl

theorem mapM_stages {γ δ ζ : Type} {g : β → Except ε γ} {h : γ → Except ε δ} {k : β → δ → ζ}
    {zs : List ζ} :
    xs.mapM (fun x => f x >>= fun y => g y >>= fun w => h w >>= fun v => pure (k y v)) = .ok zs ↔
      ∃ ys ws vs, xs.mapM f = .ok ys ∧ ys.mapM g = .ok ws ∧ ws.mapM h = .ok vs ∧
        zs = List.zipWith k ys vs := by
  induction xs generalizing zs with
  | nil =>
    constructor
    · intro hz
      cases hz
      exact ⟨[],[],[],rfl,rfl,rfl,rfl⟩
    · rintro ⟨ys,ws,vs,hys,hws,hvs,rfl⟩
      cases hys
      rfl
  | cons x xs ih =>
    constructor
    · intro hz
      rw [List.mapM_cons] at hz
      obtain ⟨z,hz',hz⟩ := bind_ok hz
      obtain ⟨y,hy,hz'⟩ := bind_ok hz'
      obtain ⟨w,hw,hz'⟩ := bind_ok hz'
      obtain ⟨v,hv,hz'⟩ := bind_ok hz'
      cases hz'
      obtain ⟨tail,htail,hz⟩ := bind_ok hz
      cases hz
      obtain ⟨ys,ws,vs,hys,hws,hvs,rfl⟩ := ih.mp htail
      refine ⟨y :: ys,w :: ws,v :: vs,?_,?_,?_,rfl⟩
      · rw [List.mapM_cons,hy,hys]
        rfl
      · rw [List.mapM_cons,hw,hws]
        rfl
      · rw [List.mapM_cons,hv,hvs]
        rfl
    · rintro ⟨ys,ws,vs,hys,hws,hvs,rfl⟩
      rw [List.mapM_cons] at hys
      obtain ⟨y,hy,hys⟩ := bind_ok hys
      obtain ⟨ys,hys',hys⟩ := bind_ok hys
      cases hys
      rw [List.mapM_cons] at hws
      obtain ⟨w,hw,hws⟩ := bind_ok hws
      obtain ⟨ws,hws',hws⟩ := bind_ok hws
      cases hws
      rw [List.mapM_cons] at hvs
      obtain ⟨v,hv,hvs⟩ := bind_ok hvs
      obtain ⟨vs,hvs',hvs⟩ := bind_ok hvs
      cases hvs
      rw [List.mapM_cons,hy,ok_bind,hw,ok_bind,hv,ok_bind,
        ih.mpr ⟨ys,ws,vs,hys',hws',hvs',rfl⟩]
      rfl

theorem mapM_perm {xs' : List α} {ys : List β} (h : xs.Perm xs') (hxs : xs.mapM f = .ok ys) :
    ∃ ys', xs'.mapM f = .ok ys' ∧ ys.Perm ys' := by
  induction h generalizing ys with
  | nil => exact ⟨ys,hxs,.refl ys⟩
  | cons x _ ih =>
    rw [List.mapM_cons] at hxs
    obtain ⟨y,hy,hxs⟩ := bind_ok hxs
    obtain ⟨zs,hzs,hxs⟩ := bind_ok hxs
    cases hxs
    obtain ⟨zs',hzs',hperm⟩ := ih hzs
    refine ⟨y :: zs',?_,hperm.cons y⟩
    rw [List.mapM_cons,hy,hzs']
    rfl
  | swap x x' xs =>
    rw [List.mapM_cons,List.mapM_cons] at hxs
    obtain ⟨y,hy,hxs⟩ := bind_ok hxs
    obtain ⟨tail,htail,hxs⟩ := bind_ok hxs
    cases hxs
    obtain ⟨y',hy',htail⟩ := bind_ok htail
    obtain ⟨zs,hzs,htail⟩ := bind_ok htail
    cases htail
    refine ⟨y' :: y :: zs,?_,.swap y' y zs⟩
    rw [List.mapM_cons,List.mapM_cons,hy,hy',hzs]
    rfl
  | trans _ _ ih ih' =>
    obtain ⟨ys',hys',hperm⟩ := ih hxs
    obtain ⟨ys'',hys'',hperm'⟩ := ih' hys'
    exact ⟨ys'',hys'',hperm.trans hperm'⟩

end CoppiceWallet.Lib
