import Mathlib

/-!
# Peer identifiers as the node reads them

libp2p's `PeerId` enters the node through its base58 text and the parser of that
text only. Log lines shorten the text by slicing it from byte 46; the slice
panics on a shorter text, so it is a partial function here.
-/
namespace Neolaas

/-- The interface of libp2p's `PeerId` used by the server. -/
class PeerId (P : Type) where
  toBase58 : P → String
  fromStr : String → Option P

/-- Parsing the text of an identifier gives the identifier back. -/
class LawfulPeerId (P : Type) [PeerId P] : Prop where
  fromStr_toBase58 : ∀ p : P, PeerId.fromStr (PeerId.toBase58 p) = some p

theorem toBase58_injective {P : Type} [PeerId P] [LawfulPeerId P] :
    Function.Injective (PeerId.toBase58 : P → String) := by
  intro p q h
  have hp := LawfulPeerId.fromStr_toBase58 p
  rw [h, LawfulPeerId.fromStr_toBase58 q] at hp
  exact (Option.some.inj hp).symm

/-- Drop exactly `n` bytes of UTF-8 from the front, if they end between characters. -/
def dropBytes : ℕ → List Char → Option (List Char)
  | 0, cs => some cs
  | _ + 1, [] => none
  | n + 1, c :: cs => if c.utf8Size ≤ n + 1 then dropBytes (n + 1 - c.utf8Size) cs else none

/-- Rust's `&s[n..]`, with `none` for the panic. -/
def sliceFrom (n : ℕ) (s : String) : Option String :=
  (dropBytes n s.toList).map String.ofList

/-- `&text[46..]`, the part of a peer's text that log lines show. -/
def short (text : String) : Option String := sliceFrom 46 text

/-- The characters of base58: no zero, capital O, capital I or small l. -/
def isBase58Char (c : Char) : Bool :=
  c.isAlphanum && !(['0', 'O', 'I', 'l'].contains c)

/-- A nonempty base58 text. Such texts are the concrete identifiers below. -/
structure Base58Text where
  text : String
  valid : text ≠ "" ∧ text.toList.all isBase58Char = true
  deriving DecidableEq

/-- Identifiers given by their text, parsed by checking it. -/
instance : PeerId Base58Text where
  toBase58 p := p.text
  fromStr s := if h : s ≠ "" ∧ s.toList.all isBase58Char = true then some ⟨s, h⟩ else none

/-- The identifier of a text that a computation shows to be base58. -/
def peerOf (text : String)
    (h : text ≠ "" ∧ text.toList.all isBase58Char = true := by decide) : Base58Text := ⟨text, h⟩

instance : LawfulPeerId Base58Text where
  fromStr_toBase58 p := dif_pos p.valid

end Neolaas
