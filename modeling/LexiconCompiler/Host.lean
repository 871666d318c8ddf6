import LexiconCompiler.Text.CodeUnit

/-!
# Hosts

A program runs on a host: an interpreter that goes only so deep into what is nested, and a
system that takes only some texts for the names and the contents of files. Neither follows
from what is compiled, so a host is given.
-/

namespace LexiconCompiler

/-- Which characters an encoder takes. It may refuse stand-ins: those of surrogates are
refused, and those that stand for themselves are not. -/
structure Codec where
  encodes : Char → Bool
  encodes_of_not_isStandIn : ∀ c, Text.isStandIn c = false → encodes c = true

namespace Codec

/-- Whether a text can be encoded. -/
def takes (codec : Codec) (text : String) : Bool :=
  text.toList.all codec.encodes

/-- The codec that refuses all surrogates. -/
def strict : Codec where
  encodes c := !Text.isStandIn c
  encodes_of_not_isStandIn := by simp

/-- Whether a character stands for one of the surrogates by which the name of a file keeps
a byte that is part of no character. -/
def keepsByte (c : Char) : Bool :=
  decide ((Text.charOf 0xDC80).toNat ≤ c.toNat ∧ c.toNat ≤ (Text.charOf 0xDCFF).toNat)

/-- The codec that refuses all surrogates but those that keep bytes. -/
def escaping : Codec where
  encodes c := !Text.isStandIn c || keepsByte c
  encodes_of_not_isStandIn := by
    intro c other
    simp [other]

theorem takes_eq_false_iff {codec : Codec} {text : String} :
    codec.takes text = false ↔ ∃ c ∈ text.toList, codec.encodes c = false := by
  simp [takes]

/-- A text that is refused holds a stand-in. -/
theorem exists_isStandIn_of_takes {codec : Codec} {text : String}
    (refused : codec.takes text = false) : ∃ c ∈ text.toList, Text.isStandIn c = true := by
  obtain ⟨c, member, unencoded⟩ := takes_eq_false_iff.mp refused
  refine ⟨c, member, ?_⟩
  cases standIn : Text.isStandIn c with
  | true => rfl
  | false => cases (codec.encodes_of_not_isStandIn c standIn).symm.trans unencoded

end Codec

/-- Whether a text holds the null character, which ends the names of files. -/
def holdsNull (text : String) : Bool :=
  text.toList.contains '\x00'

/-- What the interpreter and the system can do. -/
structure Host where
  /-- How deep the containers of a document may be nested. -/
  nestingLimit : Nat
  /-- How many directories may be missing on the way to one that is made. -/
  missingLimit : Nat
  /-- The encoding of the names of files. -/
  nameCodec : Codec
  /-- The encoding of the contents of files. -/
  textCodec : Codec

namespace Host

/-- A host with limits and encodings as they are usual. -/
def usual : Host where
  nestingLimit := 980
  missingLimit := 980
  nameCodec := .escaping
  textCodec := .strict

instance : Inhabited Host := ⟨usual⟩

/-- Whether the system takes a text as a part of a path. -/
def spells (host : Host) (part : String) : Bool :=
  host.nameCodec.takes part && !holdsNull part

end Host

end LexiconCompiler
