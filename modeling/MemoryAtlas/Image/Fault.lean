import MemoryAtlas.Image.Address

namespace MemoryAtlas

/-!
What can go wrong between an observer and the memory it looks at.
-/

/-- Why nothing could be read. -/
inductive ReadCause where
  /-- No region holds all of the requested bytes. -/
  | notCaptured (size : Nat)
  /-- The place to read from is not known. -/
  | unresolved
  /-- A tree descends further than any balanced tree does. -/
  | treeTooDeepBelow
  /-- A tree node has more ancestors than any balanced tree has. -/
  | treeTooDeepAbove
  /-- A text claims more bytes than are ever read. -/
  | implausibleLength (bytes : Nat)
  /-- The limits of a vector are reversed or too far apart. -/
  | implausibleSpan (first last : Address)
deriving Repr, DecidableEq

def ReadCause.message : ReadCause -> String
  | .notCaptured size => toString size ++ " bytes not captured"
  | .unresolved => "unresolved address"
  | .treeTooDeepBelow => "tree too deep below node"
  | .treeTooDeepAbove => "tree too deep above node"
  | .implausibleLength bytes => "implausible string length " ++ toString bytes
  | .implausibleSpan first last => "implausible vector span " ++ first.text ++ ".." ++ last.text

/-- A failed access to the memory. -/
inductive MemoryFault where
  | unreadable (address : Address) (cause : ReadCause)
  | unwritable (address : Address) (size : Nat)
deriving Repr, DecidableEq

def MemoryFault.message : MemoryFault -> String
  | .unreadable address cause =>
    "Failed to read process memory at address " ++ address.text ++ ": " ++ cause.message
  | .unwritable address size =>
    "Failed to write process memory at address " ++ address.text ++ ": "
      ++ (ReadCause.notCaptured size).message

end MemoryAtlas
