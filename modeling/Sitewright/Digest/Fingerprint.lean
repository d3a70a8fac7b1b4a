import Sitewright.Digest.Sha256

/-!
Contract: the short name that content is stored under.

The name and the content are digested together, with one underscore between
them, and the digest is cut to a length that suits file names.
-/

namespace Sitewright.Digest

/-- How many hexadecimal digits a fingerprint has. -/
def fingerprintLength : Nat := 16

def bytesOfText (text : String) : List UInt8 :=
  text.toList.flatMap String.utf8EncodeChar

/-- The bytes that are digested for content stored under a name. -/
def identity (name contents : String) : List UInt8 :=
  bytesOfText name ++ bytesOfText "_" ++ bytesOfText contents

/-- The first sixteen hexadecimal digits of the digest of name and content. -/
def fingerprint (name contents : String) : String :=
  String.ofList (((sha256 (identity name contents)).flatMap hexOfByte).take fingerprintLength)

end Sitewright.Digest
