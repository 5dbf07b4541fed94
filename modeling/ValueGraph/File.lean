/-
  Files: what a file name leads to.
-/

namespace ValueGraph

/-- What a file name leads to: nothing, something that cannot be read, or the
    bytes of a file. -/
inductive File where
  | missing
  | unreadable
  | bytes (content : ByteArray)

namespace File

/-- Whether there is something under the name. -/
def exists? : File → Bool
  | missing => false
  | unreadable | bytes _ => true

/-- The text of a file whose bytes are valid UTF-8. -/
def text? : File → Option String
  | bytes content => String.fromUTF8? content
  | missing | unreadable => none

end File

end ValueGraph
