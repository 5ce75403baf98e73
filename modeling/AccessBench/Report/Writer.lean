import AccessBench.Failure

/-!
Places that the text of a report is written to.
-/

namespace AccessBench

/-- A place for text, with states of type `ω`. -/
structure Writer (ω : Type) where
  write : String → ω → Except Failure Unit × ω

/-- A page with room for a number of bytes, or for any number of them. -/
structure Page where
  text : String := ""
  /-- The bytes offered so far, taken or not. -/
  offered : Nat := 0
  room : Option Nat := none
  deriving DecidableEq, Inhabited

namespace Page

def sinkFull : Failure := .described "sink full"

/-- Takes a text only as a whole. Once the bytes offered are more than there is room for, nothing is
taken any more; an empty text is no offer. -/
def append (text : String) (page : Page) : Except Failure Unit × Page :=
  let offered := page.offered + text.utf8ByteSize
  if text.isEmpty then (.ok (), page)
  else if page.room.any (· < offered) then (.error sinkFull, { page with offered := offered })
  else (.ok (), { page with text := page.text ++ text, offered := offered })

def writer : Writer Page := ⟨append⟩

end Page

end AccessBench
