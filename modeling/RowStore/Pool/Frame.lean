import RowStore.Address

/-!
# Frames

A frame is a place of the pool that holds one page or none.  A page that is put into a frame gets a
ticket, and whoever asks for it gets a `Handle` with that ticket; so two handles refer to the same
installation exactly if their tickets agree, even where the same page was loaded twice.

A frame is pinned while a handle to the page in it is out.  A handle outlives its frame: if the
frame takes another page meanwhile, the old handle stays good, but pins nothing any more.
-/

namespace RowStore

/-- A reference to an installed page. -/
structure Handle (α : Type) where
  ticket : Nat
  content : α
  deriving DecidableEq, Repr

/-- A frame: the page in it, if there is one, with its id. -/
structure Frame (α : Type) where
  resident : Option (PageId × Handle α)
  deriving DecidableEq, Repr

namespace Frame

variable {α : Type}

/-- The frame that holds no page. -/
def empty : Frame α := ⟨none⟩

/-- Whether the frame holds no page. -/
def isEmpty (f : Frame α) : Bool := f.resident.isNone

/-- The id of the page in the frame. -/
def pageId? (f : Frame α) : Option PageId := f.resident.map Prod.fst

/-- A handle to the page in the frame. -/
def handle? (f : Frame α) : Option (Handle α) := f.resident.map Prod.snd

/-- Whether one of the tickets that are out belongs to the page in the frame. -/
def isPinned (f : Frame α) (out : List Nat) : Bool :=
  match f.resident with
  | some (_, h) => out.contains h.ticket
  | none => false

/-- Puts a page into the frame and gives the id of the page that was there. -/
def install (f : Frame α) (page : PageId) (h : Handle α) : Option PageId × Frame α :=
  (f.pageId?, ⟨some (page, h)⟩)

/-- Empties the frame and gives the id of the page that was there. -/
def reset (f : Frame α) : Option PageId × Frame α :=
  (f.pageId?, empty)

end Frame

/-- A frame number prints with a tag in front. -/
def frameText (frame : Nat) : String := "frame:" ++ toString frame

end RowStore
