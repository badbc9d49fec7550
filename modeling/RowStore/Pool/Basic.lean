import RowStore.Data.Assoc
import RowStore.Error
import RowStore.Pool.Clock
import RowStore.Pool.Frame

/-!
# The buffer pool

The pool keeps pages in a fixed number of frames.  Beside the frames it has

* the page table, which says for each resident page in which frame it is,
* the list of empty frames, of which the first is taken next,
* the clock, which tracks the frames that hold a page,
* the tickets of the handles that are out, one entry per handle.

A request for a page is answered from the pool if the page is resident (`Pool.fetch`).  Otherwise
the page is loaded and then admitted (`Pool.accept`): if it has become resident in the meantime, the
resident copy is used; else it goes into an empty frame, or into one whose page gives way.  A page
with a handle out never gives way, so admission fails if all pages are pinned.

Every handle that the pool gives counts as out until it is given back with `Pool.release`.

Frames are numbered by natural numbers here, and requests are counted with them.  On a machine a
number of a frame has 32 bits, so a pool should have no more than `Pool.maxFrames` of them, and the
two counters have 64 bits and would end with the request number 2 ^ 64.
-/

namespace RowStore

/-- The state of a buffer pool of pages with content of type `α`. -/
structure Pool (α : Type) where
  frames : List (Frame α)
  table : Assoc PageId Nat
  free : List Nat
  clock : Clock
  out : List Nat
  nextTicket : Nat
  /-- The requests that were answered from the pool, without a bound. -/
  hits : Nat
  /-- The requests that were not, without a bound. -/
  misses : Nat

/-- What a pool tells about itself. -/
structure PoolStats where
  total : Nat
  free : Nat
  used : Nat
  pinned : Nat
  hits : Nat
  misses : Nat
  deriving DecidableEq, Repr

namespace Pool

variable {α : Type}

/-- The number of frames that can be told apart by their numbers. -/
def maxFrames : Nat := 4294967296

/-- The pool with a number of empty frames, which is at most `maxFrames`. -/
def ofFrames (count : Nat) : Pool α where
  frames := List.replicate count Frame.empty
  table := ∅
  free := List.range count
  clock := Clock.ofCapacity count
  out := []
  nextTicket := 0
  hits := 0
  misses := 0

/-! ## Looking -/

/-- A handle to the page in a frame. -/
def handleIn? (p : Pool α) (frame : Nat) : Option (Handle α) :=
  p.frames[frame]?.bind Frame.handle?

/-- The id of the page in a frame. -/
def pageIn? (p : Pool α) (frame : Nat) : Option PageId :=
  p.frames[frame]?.bind Frame.pageId?

/-- The frame and the handle of a resident page. -/
def lookup (p : Pool α) (page : PageId) : Option (Nat × Handle α) :=
  match p.table.find? page with
  | none => none
  | some frame => (p.handleIn? frame).map fun h => (frame, h)

/-- Whether a page is resident. -/
def contains (p : Pool α) (page : PageId) : Bool := p.table.contains page

/-- Whether the page in a frame has a handle out. -/
def isPinned (p : Pool α) (frame : Nat) : Bool :=
  match p.frames[frame]? with
  | some f => f.isPinned p.out
  | none => false

/-- The present figures. -/
def stats (p : Pool α) : PoolStats where
  total := p.frames.length
  free := p.free.length
  used := p.table.size
  pinned := p.frames.countP fun f => f.isPinned p.out
  hits := p.hits
  misses := p.misses

/-! ## Handles -/

/-- Gives a handle out for the page in a frame, which counts as a reference to the frame. -/
def lend (p : Pool α) (frame : Nat) (h : Handle α) : Handle α × Pool α :=
  (h, { p with clock := p.clock.touch frame, out := h.ticket :: p.out })

/-- Takes a handle back. -/
def release (p : Pool α) (h : Handle α) : Pool α :=
  { p with out := p.out.erase h.ticket }

/-! ## Requests -/

/-- Answers a request from the pool, which is a hit if the page is resident. -/
def fetch (p : Pool α) (page : PageId) : Option (Handle α) × Pool α :=
  match p.lookup page with
  | none => (none, p)
  | some (frame, h) =>
    let (h, p) := p.lend frame h
    (some h, { p with hits := p.hits + 1 })

/-- Counts a request that the pool could not answer. -/
def countMiss (p : Pool α) : Pool α :=
  { p with misses := p.misses + 1 }

/-- Takes an empty frame, or makes one empty whose page may give way. -/
def allocate (p : Pool α) : Option Nat × Pool α :=
  match p.free with
  | frame :: rest => (some frame, { p with free := rest })
  | [] =>
    match p.clock.evict fun frame => !p.isPinned frame with
    | (none, clock) => (none, { p with clock := clock })
    | (some frame, clock) =>
      let p := { p with clock := clock }
      match p.pageIn? frame with
      | some page =>
        (some frame,
          { p with frames := p.frames.set frame Frame.empty, table := p.table.erase page })
      | none => (some frame, p)

/-- Puts a loaded page into an empty frame and gives a handle to it out. -/
def install (p : Pool α) (frame : Nat) (page : PageId) (content : α) : Handle α × Pool α :=
  let h : Handle α := ⟨p.nextTicket, content⟩
  (h,
    { p with
      frames := p.frames.set frame ⟨some (page, h)⟩
      table := p.table.insert page frame
      clock := p.clock.insert frame
      out := h.ticket :: p.out
      nextTicket := p.nextTicket + 1 })

/-- Admits a loaded page, unless the page is resident by now, and gives a handle out. -/
def accept (p : Pool α) (page : PageId) (content : α) : Except Error (Handle α) × Pool α :=
  match p.lookup page with
  | some (frame, h) =>
    let (h, p) := p.lend frame h
    (.ok h, p)
  | none =>
    match p.allocate with
    | (none, p) => (.error .poolFull, p)
    | (some frame, p) =>
      let (h, p) := p.install frame page content
      (.ok h, p)

/-- Answers a request, with what a loader has for the page if it is not resident. -/
def getOrLoad (p : Pool α) (page : PageId) (loader : Unit → Except Error α) :
    Except Error (Handle α) × Pool α :=
  match p.fetch page with
  | (some h, p) => (.ok h, p)
  | (none, p) =>
    let p := p.countMiss
    match loader () with
    | .error e => (.error e, p)
    | .ok content => p.accept page content

/-! ## Discarding -/

/-- Empties a frame and adds it to the empty ones. -/
def vacate (p : Pool α) (page : PageId) (frame : Nat) : Pool α :=
  { p with
    frames := p.frames.set frame Frame.empty
    table := p.table.erase page
    free := frame :: p.free
    clock := p.clock.remove frame }

/-- Takes a page out of the pool and says whether it was there. -/
def discardPage (p : Pool α) (page : PageId) : Bool × Pool α :=
  match p.table.find? page with
  | none => (false, p)
  | some frame => (true, p.vacate page frame)

/-- Takes pages out of the pool, one after the other. -/
def discardAll (p : Pool α) (pages : List PageId) : Pool α :=
  pages.foldl (fun p page => (p.discardPage page).2) p

/-- Takes the pages of a table out of the pool and gives their number. -/
def discardTable (p : Pool α) (table : TableId) : Nat × Pool α :=
  let doomed := p.table.keys.filter fun page => page.table = table
  (doomed.length, p.discardAll doomed)

/-- Takes all pages out of the pool. -/
def clear (p : Pool α) : Pool α :=
  p.discardAll p.table.keys

end Pool

end RowStore
