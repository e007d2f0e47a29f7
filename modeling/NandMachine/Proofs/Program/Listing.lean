import NandMachine.Proofs.Instruction.Listing
import NandMachine.Proofs.Program.Loaded

/-!
# Listings of programs

The nibbles of a program can be taken apart in one way only. A listing finds the instructions again
at their places, whatever stands behind the program, and goes on with what stands there. An image
holds whole bytes, so that there is a zero behind a program of odd length, and zero is the code of
no operation.

## Key results

- `walk_of_program`: a program in front of other nibbles is read instruction by instruction
- `encode_inj`: no two programs have the same nibbles
- `listing_of_program`: the listings of a program, alone or with nibbles behind it, and of its image
-/

namespace NandMachine.Program

open Instruction (Walk listing decodeList)

/-- The instructions of a program, each with its place. -/
def places (p : Program) : List (Nat × Except IllegalOpcode Instruction) :=
  p.mapIdx fun j i => (p.offset j, .ok i)

/-- Without their places, the instructions of a program are the program. -/
theorem map_snd_places (p : Program) : p.places.map Prod.snd = p.map .ok := by
  apply List.ext_getElem?
  intro j
  simp [places, Function.comp_def]

/-- A program that stands at a position is read instruction by instruction, up to its end. -/
theorem walk_of_program (p : Program) {ns t : List Nibble} {position : Nat}
    (h : ns.drop position = p.encode ++ t) :
    Walk ns position (p.mapIdx fun j i => (position + p.offset j, .ok i)) (position + p.size) := by
  -- By induction on the program; the list stays the same, and the position moves on.
  induction p generalizing position with
  | nil => exact .stay position
  | cons i p ih =>
    have hread : decodeList (ns.drop position) = .ok i := by
      rw [h, encode_cons, List.append_assoc, Instruction.decodeList_encode_append]
    have hinside : position < ns.length := by
      have hlen := congrArg List.length h
      have hpos := i.size_pos
      rw [List.length_drop, List.length_append, length_encode, size_cons] at hlen
      omega
    have hbehind : ns.drop (position + i.size) = encode p ++ t := by
      rw [← List.drop_drop, h, encode_cons, List.append_assoc, ← Instruction.length_encode,
        List.drop_left]
    have hwidth : Instruction.width (decodeList (ns.drop position)) = i.size := by rw [hread]; rfl
    have hwalk := Walk.read hinside (hwidth ▸ ih hbehind)
    have hplace : ∀ j, position + offset (i :: p) (j + 1) = position + i.size + offset p j :=
      fun j => (Nat.add_assoc ..).symm
    rw [hread] at hwalk
    simp only [List.mapIdx_cons, hplace, size_cons, ← Nat.add_assoc]
    exact hwalk

/-- A program in front of other nibbles is read up to where they start. -/
theorem walk_encode_append (p : Program) (t : List Nibble) :
    Walk (p.encode ++ t) 0 p.places p.encode.length := by
  have hfront : (p.encode ++ t).drop 0 = p.encode ++ t := rfl
  have hwalk := walk_of_program p hfront
  simp only [Nat.zero_add, ← length_encode] at hwalk
  exact hwalk

/-- The listing goes on behind the program with what stands there. -/
theorem listing_encode_append (p : Program) (t : List Nibble) :
    listing 0 (p.encode ++ t) = p.places ++ listing p.encode.length t := by
  have hlisting := Instruction.listing_of_walk (walk_encode_append p t)
  rw [List.drop_zero, List.drop_left] at hlisting
  exact hlisting

/-- The listing of a program has its instructions at their places. -/
theorem listing_encode (p : Program) : listing 0 p.encode = p.places := by
  have hlisting := listing_encode_append p []
  rw [List.append_nil, listing, List.append_nil] at hlisting
  exact hlisting

/-- No two programs have the same nibbles. -/
theorem encode_inj {p q : Program} : p.encode = q.encode ↔ p = q := by
  refine ⟨fun h => ?_, fun h => congrArg encode h⟩
  -- The listing of the nibbles is the one of either program.
  have hplaces : p.places = q.places := by rw [← listing_encode, h, listing_encode]
  have hreadings : (p.map .ok : List (Except IllegalOpcode Instruction)) = q.map .ok := by
    rw [← map_snd_places, hplaces, map_snd_places]
  exact (List.map_inj_right fun _ _ => Except.ok.inj).mp hreadings

/-- A zero is listed as the code of no operation. -/
theorem listing_zero (position : Nat) : listing position [0] = [(position, .error ⟨0⟩)] := by
  have hread : decodeList [0] = .error ⟨0⟩ := rfl
  simp [listing, hread, Instruction.width]

/-- The zero that fills up an image is listed as the code of no operation. -/
theorem listing_nibbles_ofNibbles (p : Program) :
    listing 0 (Rom.ofNibbles p.encode).nibbles =
      p.places ++ if p.encode.length % 2 = 0 then [] else [(p.encode.length, .error ⟨0⟩)] := by
  rw [Rom.nibbles_ofNibbles, listing_encode_append]
  rcases Nat.mod_two_eq_zero_or_one p.encode.length with heven | hodd
  · rw [heven, if_pos rfl, List.replicate_zero, listing]
  · rw [hodd, if_neg Nat.one_ne_zero, List.replicate_one, listing_zero]

/-- Taking apart what a program was encoded to gives back the program. The walk through its nibbles,
whatever stands behind them, reads its instructions at their places and comes to where the other
nibbles start, which are then listed in the same way. The program is as long as its instructions
together, and there is no other program with the same nibbles. In an image of the program there is
nothing behind it if its length is even, and otherwise one nibble that stands for no operation. -/
theorem listing_of_program (p : Program) (t : List Nibble) :
    Walk (p.encode ++ t) 0 p.places p.encode.length ∧
    listing 0 (p.encode ++ t) = p.places ++ listing p.encode.length t ∧
    p.encode.length = p.foldr (fun i n => i.size + n) 0 ∧
    (∀ q : Program, q.encode = p.encode ↔ q = p) ∧
    listing 0 (Rom.ofNibbles p.encode).nibbles =
      p.places ++ if p.encode.length % 2 = 0 then [] else [(p.encode.length, .error ⟨0⟩)] := by
  exact ⟨walk_encode_append p t, listing_encode_append p t, length_encode p, fun q => encode_inj,
    listing_nibbles_ofNibbles p⟩

end NandMachine.Program
