import Mathlib.Data.List.Basic
import Mathlib.Logic.Equiv.Basic
import Mathlib.Tactic.Ring

/-!
# Borsh codecs of fixed size

A codec writes a value as a fixed number of bytes and reads it from the front of a text of
bytes. Reading gives back what was written, and what is read is what it would be written as, so
that two codecs that write the same bytes read the same fields off them. A struct is the product
of its fields in their order.
-/

namespace Borsh

structure Codec (α : Type) where
  size : Nat
  write : α → List UInt8
  read : List UInt8 → Option (α × List UInt8)
  length_write : ∀ a, (write a).length = size
  read_write : ∀ a rest, read (write a ++ rest) = some (a, rest)
  write_read : ∀ {bytes a rest}, read bytes = some (a, rest) → bytes = write a ++ rest

variable {α β : Type}

namespace Codec

/-- The bytes hold a value. -/
def Reads (c : Codec α) (bytes : List UInt8) : Prop :=
  ∃ a, c.read bytes = some (a, bytes.drop c.size)

end Codec

/-! ## The fields of a struct -/

/-- One value after another. -/
def Codec.prod (c : Codec α) (d : Codec β) : Codec (α × β) where
  size := c.size + d.size
  write p := c.write p.1 ++ d.write p.2
  read bytes :=
    match c.read bytes with
    | none => none
    | some (a, rest) =>
      match d.read rest with
      | none => none
      | some (b, rest) => some ((a, b), rest)
  length_write p := by rw [List.length_append, c.length_write, d.length_write]
  read_write p rest := by simp only [List.append_assoc, c.read_write, d.read_write]
  write_read := by
    intro bytes p rest h
    split at h
    · cases h
    · rename_i a tail first
      split at h
      · cases h
      · rename_i b rest' second
        cases h
        rw [c.write_read first, d.write_read second, List.append_assoc]

/-- A struct with the fields of a tuple. -/
def Codec.of (c : Codec α) (e : α ≃ β) : Codec β where
  size := c.size
  write b := c.write (e.symm b)
  read bytes := (c.read bytes).map fun p => (e p.1, p.2)
  length_write b := c.length_write _
  read_write b rest := by simp [c.read_write]
  write_read := by
    intro bytes b rest h
    obtain ⟨⟨a, rest'⟩, read, same⟩ := Option.map_eq_some_iff.1 h
    cases same
    simp [c.write_read read]

theorem Codec.Reads.prod {c : Codec α} {d : Codec β} {bytes : List UInt8} (first : c.Reads bytes)
    (second : d.Reads (bytes.drop c.size)) : (c.prod d).Reads bytes := by
  obtain ⟨a, first⟩ := first
  obtain ⟨b, second⟩ := second
  refine ⟨(a, b), ?_⟩
  simp only [Codec.prod, first, second, List.drop_drop]

theorem Codec.Reads.of {c : Codec α} {bytes : List UInt8} (h : c.Reads bytes) (e : α ≃ β) :
    (c.of e).Reads bytes := by
  obtain ⟨a, read⟩ := h
  exact ⟨e a, by simp [Codec.of, read]⟩

/-! ## Integers -/

/-- The `n` little-endian bytes of a number. -/
def writeLE : Nat → Nat → List UInt8
  | 0, _ => []
  | n + 1, v => UInt8.ofNat (v % 256) :: writeLE n (v / 256)

def readLE : List UInt8 → Nat
  | [] => 0
  | b :: bytes => b.toNat + 256 * readLE bytes

theorem length_writeLE (n v : Nat) : (writeLE n v).length = n := by
  induction n generalizing v with
  | zero => rfl
  | succ n ih => rw [writeLE, List.length_cons, ih]

theorem readLE_writeLE (n v : Nat) : readLE (writeLE n v) = v % 256 ^ n := by
  induction n generalizing v with
  | zero => rw [writeLE, readLE, pow_zero, Nat.mod_one]
  | succ n ih =>
    have byte : (UInt8.ofNat (v % 256)).toNat = v % 256 := by
      rw [UInt8.toNat_ofNat']
      omega
    rw [writeLE, readLE, ih, byte, pow_succ', Nat.mod_mul]

theorem readLE_lt (bytes : List UInt8) : readLE bytes < 256 ^ bytes.length := by
  induction bytes with
  | nil => exact Nat.one_pos
  | cons b bytes ih =>
    have low := b.toNat_lt
    rw [readLE, List.length_cons, pow_succ]
    omega

theorem writeLE_readLE (bytes : List UInt8) : writeLE bytes.length (readLE bytes) = bytes := by
  induction bytes with
  | nil => rfl
  | cons b bytes ih =>
    have low := b.toNat_lt
    have first : (b.toNat + 256 * readLE bytes) % 256 = b.toNat := by omega
    have rest : (b.toNat + 256 * readLE bytes) / 256 = readLE bytes := by omega
    rw [List.length_cons, readLE, writeLE, first, rest, ih, UInt8.ofNat_toNat]

/-- The first bytes of a text, when there are so many. -/
def takeBytes (n : Nat) (bytes : List UInt8) : Option (List UInt8 × List UInt8) :=
  if n ≤ bytes.length then some (bytes.take n, bytes.drop n) else none

theorem takeBytes_append {n : Nat} {bytes : List UInt8} (length : bytes.length = n)
    (rest : List UInt8) : takeBytes n (bytes ++ rest) = some (bytes, rest) := by
  subst length
  rw [takeBytes, if_pos (by simp)]
  simp

theorem of_takeBytes {n : Nat} {bytes first rest : List UInt8}
    (h : takeBytes n bytes = some (first, rest)) : first.length = n ∧ bytes = first ++ rest := by
  unfold takeBytes at h
  split at h
  · cases h
    exact ⟨by simpa using ‹_›, (List.take_append_drop ..).symm⟩
  · cases h

def u8 : Codec UInt8 where
  size := 1
  write b := [b]
  read
    | [] => none
    | b :: rest => some (b, rest)
  length_write _ := rfl
  read_write _ _ := rfl
  write_read := by
    intro bytes a rest h
    cases bytes with
    | nil => cases h
    | cons b bytes =>
      cases h
      rfl

def u64 : Codec UInt64 where
  size := 8
  write v := writeLE 8 v.toNat
  read bytes := (takeBytes 8 bytes).map fun p => (UInt64.ofNat (readLE p.1), p.2)
  length_write v := length_writeLE 8 _
  read_write v rest := by
    have small : v.toNat % 256 ^ 8 = v.toNat := Nat.mod_eq_of_lt (by simpa using v.toNat_lt)
    rw [takeBytes_append (length_writeLE 8 _), Option.map_some, readLE_writeLE, small,
      UInt64.ofNat_toNat]
  write_read := by
    intro bytes v rest h
    obtain ⟨⟨first, rest'⟩, taken, same⟩ := Option.map_eq_some_iff.1 h
    cases same
    obtain ⟨length, rfl⟩ := of_takeBytes taken
    have small := readLE_lt first
    rw [length] at small
    have back : (UInt64.ofNat (readLE first)).toNat = readLE first := by
      rw [UInt64.toNat_ofNat']
      exact Nat.mod_eq_of_lt small
    have written := writeLE_readLE first
    rw [length] at written
    simp only [back, written]

/-- A byte that is 0 or 1. -/
def boolean : Codec Bool where
  size := 1
  write b := [if b then 1 else 0]
  read
    | [] => none
    | b :: rest => if b = 0 then some (false, rest) else if b = 1 then some (true, rest) else none
  length_write _ := rfl
  read_write b rest := by cases b <;> rfl
  write_read := by
    intro bytes a rest h
    cases bytes with
    | nil => cases h
    | cons b bytes =>
      simp only at h
      split at h
      · cases h
        simp_all
      · split at h
        · cases h
          simp_all
        · cases h

/-- An array of bytes. -/
abbrev Bytes (n : Nat) : Type := { bytes : List UInt8 // bytes.length = n }

def bytes (n : Nat) : Codec (Bytes n) where
  size := n
  write v := v.1
  read text :=
    if h : n ≤ text.length then some (⟨text.take n, by simpa using h⟩, text.drop n) else none
  length_write v := v.2
  read_write v rest := by
    obtain ⟨v, rfl⟩ := v
    simp
  write_read := by
    intro text v rest h
    split at h
    · cases h
      exact (List.take_append_drop ..).symm
    · cases h

/-! ## Which bytes hold a value -/

variable {text : List UInt8}

theorem reads_u8 (h : 1 ≤ text.length) : u8.Reads text := by
  cases text with
  | nil => cases h
  | cons b text => exact ⟨b, rfl⟩

theorem reads_u64 (h : 8 ≤ text.length) : u64.Reads text := by
  refine ⟨UInt64.ofNat (readLE (text.take 8)), ?_⟩
  simp only [u64, takeBytes, if_pos h, Option.map_some]

theorem reads_bytes {n : Nat} (h : n ≤ text.length) : (bytes n).Reads text :=
  ⟨⟨text.take n, by simpa using h⟩, by simp only [bytes, dif_pos h]⟩

theorem reads_boolean (h : text[0]? = some 0 ∨ text[0]? = some 1) : boolean.Reads text := by
  cases text with
  | nil => simp at h
  | cons b text =>
    rcases h with zero | one
    · obtain rfl : b = 0 := by simpa using zero
      exact ⟨false, rfl⟩
    · obtain rfl : b = 1 := by simpa using one
      exact ⟨true, rfl⟩

end Borsh
