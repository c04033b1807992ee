import OxenMQ.Lib.Radix

/-!
# Lists of properties on the wire

A property has a name of at most 255 bytes and a value.  On the wire it is the length of the name in
one byte, the name, the length of the value in four bytes with the most significant one first, and
the value; a list of properties is one after the other.  This is the format of the metadata of ZMTP.

Bytes are characters here.
-/

set_option autoImplicit false

namespace Properties

open Radix

/-- A number in four bytes. -/
def size (n : ℕ) : List Char := (digits 256 4 n).map Char.ofNat

/-- A property on the wire. -/
def write (name value : List Char) : List Char :=
  Char.ofNat name.length :: (name ++ (size value.length ++ value))

/-- Reads a list of properties. -/
def read : List Char → Option (List (List Char × List Char))
  | [] => some []
  | n :: rest =>
    let name := rest.take n.toNat
    let rest' := rest.drop n.toNat
    let len := value 256 ((rest'.take 4).map Char.toNat)
    let rest'' := rest'.drop 4
    if name.length < n.toNat ∨ rest'.length < 4 ∨ rest''.length < len then none
    else (read (rest''.drop len)).map ((name, rest''.take len) :: ·)
termination_by s => s.length
decreasing_by
  simp only [List.length_drop, List.length_cons]
  omega

theorem length_size (n : ℕ) : (size n).length = 4 := by
  rw [size, List.length_map, length_digits]

theorem value_size {n : ℕ} (h : n < 2 ^ 32) : value 256 ((size n).map Char.toNat) = n := by
  have hbytes : (size n).map Char.toNat = digits 256 4 n := by
    rw [size, List.map_map]
    refine (List.map_congr_left fun d hd => ?_).trans (List.map_id _)
    exact toNat_ofNat_of_lt (digits_lt (by decide) 4 n d hd)
  rw [hbytes, value_digits]
  exact Nat.mod_eq_of_lt h

/-- **Properties are read as they have been written.** -/
theorem read_write {name value : List Char} (hname : name.length < 256)
    (hvalue : value.length < 2 ^ 32) (rest : List Char) :
    read (write name value ++ rest) = (read rest).map ((name, value) :: ·) := by
  have hsize := length_size value.length
  rw [write, List.cons_append, read, toNat_ofNat_of_lt hname]
  simp only [List.append_assoc, List.take_left, List.drop_left, List.take_left' hsize,
    List.drop_left' hsize, value_size hvalue]
  rw [if_neg]
  simp only [List.length_append, hsize]
  omega

end Properties
