/-
LogCalls/Proofs/Outcome.lean

Outcomes of operations in a row.  An operation made of parts succeeds where the
first part does and what is made of its result does (`bind_eq_ok_iff`), so a
proof about a result peels off one part at a time and never opens an operation.
-/
import LogCalls.Journal

namespace LogCalls

/-! ### Results -/

section

variable {α β ε : Type}

@[simp] theorem ok_bind (a : α) (f : α → Except ε β) : (Except.ok a >>= f) = f a := rfl

@[simp] theorem error_bind (e : ε) (f : α → Except ε β) :
    ((Except.error e : Except ε α) >>= f) = .error e := rfl

@[simp] theorem pure_eq_ok (a : α) : (pure a : Except ε α) = .ok a := rfl

@[simp] theorem map_ok (g : α → β) (a : α) : (Except.ok a : Except ε α).map g = .ok (g a) := rfl

@[simp] theorem map_error (g : α → β) (e : ε) :
    (Except.error e : Except ε α).map g = .error e := rfl

@[simp] theorem mapError_ok {δ : Type} (g : ε → δ) (a : α) :
    (Except.ok a : Except ε α).mapError g = .ok a := rfl

theorem bind_eq_ok_iff {x : Except ε α} {f : α → Except ε β} {b : β} :
    (x >>= f) = .ok b ↔ ∃ a, x = .ok a ∧ f a = .ok b := by
  rcases x with e | a <;> simp

theorem bind_eq_error_iff {x : Except ε α} {f : α → Except ε β} {e : ε} :
    (x >>= f) = .error e ↔ x = .error e ∨ ∃ a, x = .ok a ∧ f a = .error e := by
  rcases x with e' | a <;> simp

theorem map_eq_ok_iff {x : Except ε α} {g : α → β} {b : β} :
    x.map g = .ok b ↔ ∃ a, x = .ok a ∧ g a = b := by
  rcases x with e | a <;> simp

/-- Operations in a row succeed where each of them does. -/
theorem exists_mapM_eq_ok_iff {f : α → Except ε β} {l : List α} :
    (∃ bs, l.mapM f = .ok bs) ↔ ∀ a ∈ l, ∃ b, f a = .ok b := by
  induction l with
  | nil => simp
  | cons a l ih =>
      rw [List.mapM_cons, List.forall_mem_cons, ← ih]
      rcases f a with e | b
      · simp
      · rcases l.mapM f with e | bs <;> simp

/-- Operations in a row, where the result of each is known. -/
theorem mapM_map_eq_ok {γ : Type} {f : β → Except ε γ} {g : α → β} {h : α → γ} {l : List α}
    (hf : ∀ a ∈ l, f (g a) = .ok (h a)) : (l.map g).mapM f = .ok (l.map h) := by
  induction l with
  | nil => rfl
  | cons a l ih =>
      rw [List.forall_mem_cons] at hf
      rw [List.map_cons, List.mapM_cons, hf.1, ok_bind, ih hf.2, ok_bind, List.map_cons]
      rfl

/-- The results of operations in a row are those of the single ones. -/
theorem mem_iff_of_mapM_eq_ok {f : α → Except ε β} {l : List α} {bs : List β}
    (h : l.mapM f = .ok bs) {b : β} : b ∈ bs ↔ ∃ a ∈ l, f a = .ok b := by
  induction l generalizing bs with
  | nil =>
      obtain rfl : [] = bs := Except.ok.inj h
      simp
  | cons a l ih =>
      rw [List.mapM_cons, bind_eq_ok_iff] at h
      obtain ⟨b₀, hb₀, h⟩ := h
      obtain ⟨bs', hbs', h⟩ := bind_eq_ok_iff.mp h
      obtain rfl : b₀ :: bs' = bs := Except.ok.inj h
      have hhead : f a = .ok b ↔ b = b₀ := by
        rw [hb₀, Except.ok.injEq]
        exact eq_comm
      simp only [List.mem_cons, exists_eq_or_imp, hhead, ih hbs']

/-- Operations in a row, each with its result. -/
theorem zip_of_mapM_eq_ok {f : α → Except ε β} {l : List α} {bs : List β}
    (h : l.mapM f = .ok bs) : l.length = bs.length ∧ ∀ p ∈ l.zip bs, f p.1 = .ok p.2 := by
  induction l generalizing bs with
  | nil =>
      obtain rfl : [] = bs := Except.ok.inj h
      simp
  | cons a l ih =>
      rw [List.mapM_cons, bind_eq_ok_iff] at h
      obtain ⟨b, hb, h⟩ := h
      obtain ⟨bs', hbs', h⟩ := bind_eq_ok_iff.mp h
      obtain rfl : b :: bs' = bs := Except.ok.inj h
      obtain ⟨hlen, hall⟩ := ih hbs'
      rw [List.zip_cons_cons, List.forall_mem_cons]
      exact ⟨by rw [List.length_cons, List.length_cons, hlen], hb, hall⟩

/-- Operations in a row whose results tell what they were made of. -/
theorem map_of_mapM_eq_ok {f : α → Except ε β} {g : β → α} {l : List α} {bs : List β}
    (hg : ∀ a b, f a = .ok b → g b = a) (h : l.mapM f = .ok bs) : bs.map g = l := by
  obtain ⟨hlen, hall⟩ := zip_of_mapM_eq_ok h
  calc bs.map g = ((l.zip bs).map Prod.snd).map g := by
        rw [List.map_snd_zip (Nat.le_of_eq hlen.symm)]
    _ = (l.zip bs).map Prod.fst := by
        rw [List.map_map]
        exact List.map_congr_left fun p hp => hg _ _ (hall p hp)
    _ = l := List.map_fst_zip (Nat.le_of_eq hlen)

/-- The fault of operations in a row is the fault of one of them. -/
theorem exists_mem_of_mapM_eq_error {f : α → Except ε β} {l : List α} {e : ε}
    (h : l.mapM f = .error e) : ∃ a ∈ l, f a = .error e := by
  induction l with
  | nil => cases h
  | cons a l ih =>
      rw [List.mapM_cons] at h
      rcases ha : f a with e' | b
      · rw [ha, error_bind] at h
        obtain rfl : e' = e := Except.error.inj h
        exact ⟨a, List.mem_cons_self, ha⟩
      · rcases hl : l.mapM f with e' | bs
        · rw [ha, hl, ok_bind, error_bind] at h
          obtain rfl : e' = e := Except.error.inj h
          obtain ⟨a', ha', hf⟩ := ih hl
          exact ⟨a', List.mem_cons_of_mem a ha', hf⟩
        · rw [ha, hl] at h
          cases h

/-- Two outcomes with the same result, or with a fault in both. -/
def SameOutcome (x y : Except ε α) : Prop := ∀ a, x = .ok a ↔ y = .ok a

/-! ### What an operation can raise -/

/-- Every fault of an operation is of one kind. -/
def RaisesOnly (P : ε → Prop) (x : Except ε α) : Prop := ∀ e, x = .error e → P e

variable {P : ε → Prop}

theorem raisesOnly_ok (a : α) : RaisesOnly P (.ok a : Except ε α) := nofun

theorem raisesOnly_error {e : ε} (h : P e) : RaisesOnly P (.error e : Except ε α) := by
  rintro _ ⟨⟩
  exact h

theorem raisesOnly_error_iff {e : ε} : RaisesOnly P (.error e : Except ε α) ↔ P e :=
  ⟨fun h => h e rfl, raisesOnly_error⟩

theorem RaisesOnly.bind {x : Except ε α} {f : α → Except ε β} (hx : RaisesOnly P x)
    (hf : ∀ a, RaisesOnly P (f a)) : RaisesOnly P (x >>= f) := by
  intro e h
  rcases bind_eq_error_iff.mp h with h | ⟨a, -, h⟩
  · exact hx e h
  · exact hf a e h

theorem RaisesOnly.map {x : Except ε α} (hx : RaisesOnly P x) (g : α → β) :
    RaisesOnly P (x.map g) := by
  rcases x with e | a
  · exact raisesOnly_error (hx e rfl)
  · exact raisesOnly_ok (g a)

theorem RaisesOnly.mapM {f : α → Except ε β} (hf : ∀ a, RaisesOnly P (f a)) (l : List α) :
    RaisesOnly P (l.mapM f) := by
  intro e h
  obtain ⟨a, -, ha⟩ := exists_mem_of_mapM_eq_error h
  exact hf a e ha

end

/-! ### Results of operations with a journal -/

namespace Logged

variable {α β : Type}

@[simp] theorem result_liftM (r : Except Fault α) : (liftM r : Logged α).result = r := rfl

theorem result_bind_eq_ok_iff {m : Logged α} {f : α → Logged β} {b : β} :
    (m >>= f).result = .ok b ↔ ∃ a, m.result = .ok a ∧ (f a).result = .ok b := by
  rw [result_bind, bind_eq_ok_iff]

theorem result_bind_eq_error_iff {m : Logged α} {f : α → Logged β} {e : Fault} :
    (m >>= f).result = .error e ↔
      m.result = .error e ∨ ∃ a, m.result = .ok a ∧ (f a).result = .error e := by
  rw [result_bind, bind_eq_error_iff]

end Logged

end LogCalls
