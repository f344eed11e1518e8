import Bluetape.Base.TextCodec

/-!
# Reading binary formats with a cursor

A reader takes the data and a cursor into it, and gives a value and the cursor
after it.  `Reads` says that a reader accepts exactly what a writer produces,
at every cursor: a format whose fields all do so decodes what it encodes, and
encodes what it decodes to the same bytes.  `Avoids` says that a computation does
not raise an exception.
-/

namespace Bluetape
namespace Base

/-- A computation that binds succeeds when both of its parts do. -/
theorem except_bind_eq_ok
    {ε α β : Type} {x : Except ε α} {f : α → Except ε β} {b : β} :
    (x >>= f) = .ok b ↔ ∃ a, x = .ok a ∧ f a = .ok b := by
  cases x with
  | error e =>
      simp [bind, Except.bind]
  | ok a =>
      simp [bind, Except.bind]

/-- A computation that binds fails where one of its parts does. -/
theorem except_bind_eq_error
    {ε α β : Type} {x : Except ε α} {f : α → Except ε β} {e : ε} :
    (x >>= f) = .error e ↔ x = .error e ∨ ∃ a, x = .ok a ∧ f a = .error e := by
  cases x with
  | error e' =>
      simp [bind, Except.bind]
  | ok a =>
      simp [bind, Except.bind]

/-- A loop with results succeeds when every round does. -/
theorem except_mapM_eq_ok
    {ε α β : Type} {f : α → Except ε β} {l : List α} {bs : List β} :
    l.mapM f = .ok bs ↔ List.Forall₂ (fun a b => f a = .ok b) l bs := by
  induction l generalizing bs with
  | nil =>
      rw [List.mapM_nil, List.forall₂_nil_left_iff]
      exact ⟨fun h => (Except.ok.inj h).symm, fun h => congrArg _ h.symm⟩
  | cons a l ih =>
      rw [List.mapM_cons, except_bind_eq_ok]
      simp only [except_bind_eq_ok, ih]
      constructor
      · rintro ⟨b, hb, bs', hbs', heq⟩
        obtain rfl := Except.ok.inj heq
        exact .cons hb hbs'
      · rintro (_ | ⟨hb, hbs⟩)
        exact ⟨_, hb, _, hbs, rfl⟩

theorem exists_except_mapM
    {ε α β : Type} {f : α → Except ε β} {l : List α} :
    (∃ bs, l.mapM f = .ok bs) ↔ ∀ a ∈ l, ∃ b, f a = .ok b := by
  simp only [except_mapM_eq_ok]
  induction l with
  | nil =>
      simp
  | cons a l ih =>
      rw [List.forall_mem_cons, ← ih]
      constructor
      · rintro ⟨_, _ | ⟨hb, hbs⟩⟩
        exact ⟨⟨_, hb⟩, _, hbs⟩
      · rintro ⟨⟨b, hb⟩, bs, hbs⟩
        exact ⟨b :: bs, .cons hb hbs⟩

/-- A loop without results succeeds when every round does. -/
theorem except_forM_eq_ok
    {ε α : Type} {f : α → Except ε Unit} {l : List α} {u : Unit} :
    forM l f = .ok u ↔ ∀ a ∈ l, f a = .ok () := by
  induction l with
  | nil =>
      simp [pure, Except.pure]
  | cons a l ih =>
      rw [List.forM_cons, except_bind_eq_ok]
      simp only [ih, List.forall_mem_cons]
      exact ⟨fun ⟨_, ha, hl⟩ => ⟨ha, hl⟩, fun ⟨ha, hl⟩ => ⟨(), ha, hl⟩⟩

/-- The check of an `if` that raises. -/
def raiseIf {ε : Type} (p : Prop) [Decidable p] (e : ε) : Except ε Unit :=
  if p then .error e else .ok ()

theorem raiseIf_eq_ok
    {ε : Type} {p : Prop} [Decidable p] {e : ε} {u : Unit} :
    raiseIf p e = .ok u ↔ ¬p := by
  unfold raiseIf
  split
  case isTrue h =>
    simp [h]
  case isFalse h =>
    simp [h]

theorem raiseIf_eq_error
    {ε : Type} {p : Prop} [Decidable p] {e e' : ε} :
    raiseIf p e = .error e' ↔ p ∧ e = e' := by
  unfold raiseIf
  split
  case isTrue h =>
    simp [h]
  case isFalse h =>
    simp [h]

/-- The value of a partial computation, or the exception for its absence. -/
def orRaise {ε α : Type} (e : ε) : Option α → Except ε α
  | none => .error e
  | some a => .ok a

theorem orRaise_eq_ok
    {ε α : Type} {e : ε} {x : Option α} {a : α} :
    orRaise e x = .ok a ↔ x = some a := by
  cases x with
  | none =>
      simp [orRaise]
  | some b =>
      simp [orRaise]

theorem orRaise_eq_error
    {ε α : Type} {e e' : ε} {x : Option α} :
    orRaise e x = .error e' ↔ x = none ∧ e = e' := by
  cases x with
  | none =>
      simp [orRaise]
  | some b =>
      simp [orRaise]

theorem mapError_eq_ok
    {ε ε' α : Type} {f : ε → ε'} {x : Except ε α} {a : α} :
    x.mapError f = .ok a ↔ x = .ok a := by
  cases x with
  | error e =>
      simp [Except.mapError]
  | ok b =>
      simp [Except.mapError]

section Avoids

variable {ε α β : Type} {e : ε}

/-- The computation does not raise this exception. -/
def Avoids (e : ε) (x : Except ε α) : Prop :=
  x ≠ .error e

theorem Avoids.bind
    {x : Except ε α} {f : α → Except ε β}
    (h : Avoids e x)
    (hf : ∀ a, x = .ok a → Avoids e (f a)) :
    Avoids e (x >>= f) := by
  intro hfail
  rcases except_bind_eq_error.mp hfail with hx | ⟨a, ha, hfa⟩
  · exact h hx
  · exact hf a ha hfa

theorem avoids_ok
    (e : ε) (a : α) :
    Avoids e (.ok a) := by
  rintro ⟨⟩

theorem avoids_error
    {e' : ε}
    (h : e' ≠ e) :
    Avoids e (.error e' : Except ε α) :=
  fun hfail => h (Except.error.inj hfail)

theorem avoids_orRaise
    {e' : ε}
    (h : e' ≠ e) (x : Option α) :
    Avoids e (orRaise e' x) :=
  fun hfail => h (orRaise_eq_error.mp hfail).2

theorem avoids_raiseIf
    {e' : ε}
    (h : e' ≠ e) (p : Prop) [Decidable p] :
    Avoids e (raiseIf p e') :=
  fun hfail => h (raiseIf_eq_error.mp hfail).2

theorem avoids_mapError
    {ε' : Type} {f : ε' → ε}
    (h : ∀ e', f e' ≠ e) (x : Except ε' α) :
    Avoids e (x.mapError f) := by
  cases x with
  | error e' => exact avoids_error (h e')
  | ok a => exact avoids_ok e a

end Avoids

/-- Four bytes in network order, none for a number that does not fit. -/
def packU32 (n : Int) : Option Bytes :=
  if 0 ≤ n ∧ n < 2 ^ 32 then
    some [UInt8.ofNat (n.toNat / 2 ^ 24), UInt8.ofNat (n.toNat / 2 ^ 16),
      UInt8.ofNat (n.toNat / 2 ^ 8), UInt8.ofNat n.toNat]
  else none

/-- The number of a byte string in network order. -/
def unpackU32 (bs : Bytes) : Nat :=
  bs.foldl (fun n b => n * 2 ^ 8 + b.toNat) 0

theorem packU32_eq_some
    {n : Int} {bs : Bytes}
    (h : packU32 n = some bs) :
    bs.length = 4 ∧ (unpackU32 bs : Int) = n := by
  unfold packU32 at h
  split at h
  case isTrue hrange =>
    obtain rfl := Option.some.inj h
    refine ⟨rfl, ?_⟩
    simp only [unpackU32, List.foldl_cons, List.foldl_nil, UInt8.toNat_ofNat']
    omega
  case isFalse =>
    cases h

theorem packU32_unpackU32
    {bs : Bytes}
    (h : bs.length = 4) :
    packU32 (unpackU32 bs) = some bs := by
  obtain ⟨a, b, c, d, rfl⟩ := List.length_eq_four.mp h
  have ha := a.toNat_lt
  have hb := b.toNat_lt
  have hc := c.toNat_lt
  have hd := d.toNat_lt
  have hvalue : unpackU32 [a, b, c, d] =
      ((a.toNat * 2 ^ 8 + b.toNat) * 2 ^ 8 + c.toNat) * 2 ^ 8 + d.toNat := by
    simp [unpackU32]
  rw [hvalue, packU32, if_pos (by omega)]
  simp only [Int.toNat_natCast, Option.some.injEq, List.cons.injEq, and_true]
  refine ⟨?_, ?_, ?_, ?_⟩
  all_goals
    apply UInt8.toNat.inj
    rw [UInt8.toNat_ofNat']
    omega

/-- A reader of values at a cursor. -/
abbrev Reader (ε α : Type) :=
  Bytes → Nat → Except ε (α × Nat)

/--
The reader accepts, after any prefix of the data, exactly the byte strings that
the writer produces, and stops behind them.
-/
structure Reads {ε α : Type} (read : Reader ε α) (write : α → Option Bytes) : Prop where
  accepts : ∀ {a bs}, write a = some bs → ∀ before after : Bytes,
    read (before ++ (bs ++ after)) before.length = .ok (a, (before ++ bs).length)
  exact : ∀ {before data : Bytes} {a cursor},
    read (before ++ data) before.length = .ok (a, cursor) →
    ∃ bs after, write a = some bs ∧ data = bs ++ after ∧ cursor = (before ++ bs).length

/-- A successful run that reads a value has the value's bytes at its cursor. -/
theorem Reads.next
    {ε α β : Type} {read : Reader ε α} {write : α → Option Bytes}
    (h : Reads read write)
    {data before after : Bytes} {f : α × Nat → Except ε β} {b : β}
    (hdata : data = before ++ after)
    (hrun : (read data before.length >>= f) = .ok b) :
    ∃ a bs after', write a = some bs ∧ data = (before ++ bs) ++ after' ∧
      f (a, (before ++ bs).length) = .ok b := by
  subst hdata
  obtain ⟨⟨a, cursor⟩, hread, hrest⟩ := except_bind_eq_ok.mp hrun
  obtain ⟨bs, after', hbs, rfl, rfl⟩ := h.exact hread
  exact ⟨a, bs, after', hbs, (List.append_assoc _ _ _).symm, hrest⟩

/-- A run that finds a value's bytes at its cursor goes on behind them. -/
theorem Reads.resume
    {ε α β : Type} {read : Reader ε α} {write : α → Option Bytes}
    (h : Reads read write)
    {data before after bs : Bytes} {f : α × Nat → Except ε β} {a : α} {b : β}
    (hwrite : write a = some bs)
    (hdata : data = before ++ (bs ++ after))
    (hrest : data = (before ++ bs) ++ after → f (a, (before ++ bs).length) = .ok b) :
    (read data before.length >>= f) = .ok b := by
  subst hdata
  refine except_bind_eq_ok.mpr ⟨_, h.accepts hwrite before after, hrest ?_⟩
  rw [List.append_assoc]

section Take

variable {ε : Type}

/-- The next bytes, or the error when there are fewer. -/
def takeBytes (e : ε) (size : Nat) : Reader ε Bytes := fun data cursor =>
  if size ≤ data.length - cursor then
    .ok ((data.drop cursor).take size, cursor + size)
  else .error e

theorem avoids_takeBytes
    {e e' : ε}
    (h : e ≠ e') (size : Nat) (data : Bytes) (cursor : Nat) :
    Avoids e' (takeBytes e size data cursor) := by
  unfold takeBytes
  split
  · exact avoids_ok e' _
  · exact avoids_error h

/-- Exactly the byte strings of the length are read. -/
theorem reads_takeBytes (e : ε) (size : Nat) :
    Reads (takeBytes e size) (fun bs => if bs.length = size then some bs else none) where
  accepts := by
    intro a bs h before after
    split at h
    case isTrue hlen =>
      obtain rfl := Option.some.inj h
      subst hlen
      simp [takeBytes]
    case isFalse =>
      cases h
  exact := by
    intro before data a cursor h
    unfold takeBytes at h
    split at h
    case isTrue hle =>
      simp only [List.drop_left, Except.ok.injEq, Prod.mk.injEq] at h
      simp only [List.length_append, Nat.add_sub_cancel_left] at hle
      obtain ⟨rfl, rfl⟩ := h
      refine ⟨data.take size, data.drop size, ?_, (List.take_append_drop _ _).symm, ?_⟩
      · rw [if_pos (List.length_take_of_le hle)]
      · rw [List.length_append, List.length_take_of_le hle]
    case isFalse =>
      cases h

end Take

/-- A value computed from a value that was read. -/
theorem Reads.map
    {ε α β : Type} {read : Reader ε α} {write : α → Option Bytes}
    (h : Reads read write)
    {f : α → Except ε β} {g : β → Option α}
    (hfg : ∀ a b, f a = .ok b ↔ g b = some a) :
    Reads
      (fun data cursor => do
        let (a, cursor) ← read data cursor
        let b ← f a
        return (b, cursor))
      (fun b => (g b).bind write) where
  accepts := by
    intro b bs hwrite before after
    obtain ⟨a, hg, hbs⟩ := Option.bind_eq_some_iff.mp hwrite
    have hread := h.accepts hbs before after
    exact except_bind_eq_ok.mpr ⟨_, hread, except_bind_eq_ok.mpr ⟨b, (hfg a b).mpr hg, rfl⟩⟩
  exact := by
    intro before data b cursor hread
    obtain ⟨⟨a, c⟩, ha, hrest⟩ := except_bind_eq_ok.mp hread
    obtain ⟨b', hb, hret⟩ := except_bind_eq_ok.mp hrest
    obtain ⟨rfl, rfl⟩ := Prod.mk.inj (Except.ok.inj hret)
    obtain ⟨bs, after, hbs, hdata, hcursor⟩ := h.exact ha
    exact ⟨bs, after, by rw [(hfg a b').mp hb, Option.bind_some, hbs], hdata, hcursor⟩

section Sized

variable {ε : Type} (e : ε)

/-- A number of four bytes. -/
def readU32 : Reader ε Nat := fun data cursor => do
  let (raw, cursor) ← takeBytes e 4 data cursor
  return (unpackU32 raw, cursor)

theorem avoids_readU32
    {e e' : ε}
    (h : e ≠ e') (data : Bytes) (cursor : Nat) :
    Avoids e' (readU32 e data cursor) :=
  (avoids_takeBytes h 4 data cursor).bind fun _ _ => avoids_ok e' _

theorem reads_readU32 :
    Reads (readU32 e) (fun n => packU32 n) where
  accepts := by
    intro n bs h before after
    obtain ⟨hlen, hvalue⟩ := packU32_eq_some h
    have htake := (reads_takeBytes e 4).accepts (if_pos hlen) before after
    refine except_bind_eq_ok.mpr ⟨_, htake, ?_⟩
    simp only [Int.natCast_inj.mp hvalue]
    rfl
  exact := by
    intro before data n cursor h
    obtain ⟨⟨raw, c⟩, hraw, hret⟩ := except_bind_eq_ok.mp h
    obtain ⟨rfl, rfl⟩ := Prod.mk.inj (Except.ok.inj hret)
    obtain ⟨bs, after, hbs, hdata, hcursor⟩ := (reads_takeBytes e 4).exact hraw
    split at hbs
    case isTrue hlen =>
      obtain rfl := Option.some.inj hbs
      exact ⟨raw, after, packU32_unpackU32 hlen, hdata, hcursor⟩
    case isFalse =>
      cases hbs

/-- Bytes behind their number, which has to pass a check. -/
def readSized (check : Nat → Bool) : Reader ε Bytes := fun data cursor => do
  let (size, cursor) ← readU32 e data cursor
  raiseIf (check size = false) e
  takeBytes e size data cursor

theorem avoids_readSized
    {e e' : ε}
    (h : e ≠ e') (check : Nat → Bool) (data : Bytes) (cursor : Nat) :
    Avoids e' (readSized e check data cursor) := by
  refine (avoids_readU32 h data cursor).bind fun size _ => ?_
  exact (avoids_raiseIf h _).bind fun _ _ => avoids_takeBytes h size.1 data size.2

/-- The bytes behind their number. -/
def writeSized (check : Nat → Bool) (bs : Bytes) : Option Bytes :=
  if check bs.length then (packU32 bs.length).map (· ++ bs) else none

theorem reads_readSized (check : Nat → Bool) :
    Reads (readSized e check) (writeSized check) where
  accepts := by
    intro bs out h before after
    unfold writeSized at h
    split at h
    case isTrue hcheck =>
      obtain ⟨size, hsize, rfl⟩ := Option.map_eq_some_iff.mp h
      have hread := (reads_readU32 e).accepts hsize before (bs ++ after)
      have htake := (reads_takeBytes e bs.length).accepts (if_pos rfl) (before ++ size) after
      rw [List.append_assoc before size, List.append_assoc before size] at htake
      rw [List.append_assoc size]
      refine except_bind_eq_ok.mpr ⟨_, hread, except_bind_eq_ok.mpr ⟨(), ?_, htake⟩⟩
      exact raiseIf_eq_ok.mpr (by simp [hcheck])
    case isFalse =>
      cases h
  exact := by
    intro before data bs cursor h
    obtain ⟨⟨n, c⟩, hn, hrest⟩ := except_bind_eq_ok.mp h
    obtain ⟨_, hcheck, hrest⟩ := except_bind_eq_ok.mp hrest
    obtain ⟨size, data, hsize, rfl, rfl⟩ := (reads_readU32 e).exact hn
    rw [← List.append_assoc] at hrest
    obtain ⟨raw, after, hraw, rfl, rfl⟩ := (reads_takeBytes e n).exact hrest
    split at hraw
    case isTrue hlen =>
      obtain rfl := Option.some.inj hraw
      subst hlen
      refine ⟨size ++ bs, after, ?_, (List.append_assoc _ _ _).symm, ?_⟩
      · have htrue : check bs.length = true := by
          simpa using raiseIf_eq_ok.mp hcheck
        rw [writeSized, if_pos htrue, hsize]
        rfl
      · rw [List.append_assoc]
    case isFalse =>
      cases hraw

end Sized
end Base
end Bluetape
