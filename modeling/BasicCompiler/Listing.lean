/-!
# Listings

The C program under construction. It has two parts that grow independently: the header, which
receives declarations while statements are still being read, and the body, which receives the
statements. The finished text is the header followed by the body.
-/

namespace BasicCompiler

/-- A C program under construction. -/
structure Listing where
  header : String
  body : String
deriving DecidableEq, Repr

namespace Listing

/-- The listing with nothing written. -/
def empty : Listing :=
  ⟨"", ""⟩

/-- Write at the end of the body. -/
def write (listing : Listing) (text : String) : Listing :=
  ⟨listing.header, listing.body ++ text⟩

/-- Write a line at the end of the body; the end of the body may be in the middle of a line. -/
def writeLine (listing : Listing) (line : String) : Listing :=
  listing.write (line ++ "\n")

/-- Write a line at the end of the header. -/
def writeHeaderLine (listing : Listing) (line : String) : Listing :=
  ⟨listing.header ++ (line ++ "\n"), listing.body⟩

/-- The whole text: header, then body. -/
def text (listing : Listing) : String :=
  listing.header ++ listing.body

/-- The text of the empty listing is empty. -/
@[simp] theorem text_empty : empty.text = "" := rfl

/-- Writing in the body extends the text at its end. -/
@[simp] theorem text_write (listing : Listing) (text : String) :
    (listing.write text).text = listing.text ++ text := by
  simp [write, Listing.text, String.append_assoc]

/-- Writing in the header puts the line between header and body. -/
@[simp] theorem text_writeHeaderLine (listing : Listing) (line : String) :
    (listing.writeHeaderLine line).text =
      listing.header ++ (line ++ "\n") ++ listing.body := rfl

end Listing

end BasicCompiler
