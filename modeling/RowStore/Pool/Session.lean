import RowStore.Pool.Basic

/-!
# Clients of a pool

A client calls a pool and keeps handles under names of its choice.  What it does is a `Script`: a
tree of calls in which the answer to a call chooses what comes next.  A loader is a script too, so
a request may call the pool again while it loads, as deeply and with as many different calls as it
likes, and may find its own page resident when it is done.

The state of a session is the pool and the handles that are kept (`Desk`).  A handle that is not
kept is given back as soon as the call is over, and keeping a handle gives back the one that was
kept under the same name; so the handles that are out are those on the desk.
-/

namespace RowStore

/-- The calls of a client, ending in an answer of its own. -/
inductive Script (α : Type) where
  /-- The end, with the answer. -/
  | finish (answer : Except Error α)
  /-- A request for a page, with the loader that runs if it is not resident. -/
  | load (page : PageId) (loader : Script α) (keep : Option String)
      (next : Except Error (Handle α) → Script α)
  /-- A request for a page that is only answered if it is resident. -/
  | fetch (page : PageId) (keep : Option String) (next : Option (Handle α) → Script α)
  /-- Gives back the handle that is kept under a name. -/
  | release (name : String) (next : Option (Handle α) → Script α)
  /-- Takes a page out of the pool. -/
  | discardPage (page : PageId) (next : Bool → Script α)
  /-- Takes the pages of a table out of the pool. -/
  | discardTable (table : TableId) (next : Nat → Script α)
  /-- Takes all pages out of the pool. -/
  | clear (next : Script α)

/-- A pool and the handles that its clients keep. -/
structure Desk (α : Type) where
  pool : Pool α
  kept : Assoc String (Handle α)

namespace Desk

variable {α : Type}

/-- The desk in front of a new pool. -/
def ofFrames (count : Nat) : Desk α := ⟨Pool.ofFrames count, ∅⟩

/-! ## Keeping handles -/

/-- Gives back the handle that is kept under a name. -/
def release (d : Desk α) (name : String) : Option (Handle α) × Desk α :=
  match d.kept.find? name with
  | none => (none, d)
  | some h => (some h, ⟨d.pool.release h, d.kept.erase name⟩)

/-- Keeps a handle that the pool gave, or gives it back if it is not to be kept. -/
def keep (d : Desk α) (name : Option String) (h : Handle α) : Desk α :=
  match name with
  | none => { d with pool := d.pool.release h }
  | some name =>
    let d := (d.release name).2
    { d with kept := d.kept.insert name h }

/-! ## Calls -/

/-- Requests a page that is only answered if it is resident. -/
def fetch (d : Desk α) (page : PageId) (name : Option String) : Option (Handle α) × Desk α :=
  match d.pool.fetch page with
  | (some h, pool) => (some h, { d with pool := pool }.keep name h)
  | (none, pool) => (none, { d with pool := pool })

/-- Admits a page that a loader has brought. -/
def accept (d : Desk α) (page : PageId) (name : Option String) (content : α) :
    Except Error (Handle α) × Desk α :=
  match d.pool.accept page content with
  | (.ok h, pool) => (.ok h, { d with pool := pool }.keep name h)
  | (.error e, pool) => (.error e, { d with pool := pool })

/-- Requests a page, with the loader that runs if it is not resident. -/
def load (d : Desk α) (page : PageId) (name : Option String)
    (loader : Desk α → Except Error α × Desk α) : Except Error (Handle α) × Desk α :=
  match d.fetch page name with
  | (some h, d) => (.ok h, d)
  | (none, d) =>
    match loader { d with pool := d.pool.countMiss } with
    | (.error e, d) => (.error e, d)
    | (.ok content, d) => d.accept page name content

/-- Takes a page out of the pool. -/
def discardPage (d : Desk α) (page : PageId) : Bool × Desk α :=
  let (answer, pool) := d.pool.discardPage page
  (answer, { d with pool := pool })

/-- Takes the pages of a table out of the pool. -/
def discardTable (d : Desk α) (table : TableId) : Nat × Desk α :=
  let (answer, pool) := d.pool.discardTable table
  (answer, { d with pool := pool })

/-- Takes all pages out of the pool. -/
def clear (d : Desk α) : Desk α := { d with pool := d.pool.clear }

end Desk

/-- Runs a script. -/
def Script.run {α : Type} : Script α → Desk α → Except Error α × Desk α
  | finish answer, d => (answer, d)
  | load page loader name next, d =>
    let (answer, d) := d.load page name loader.run
    (next answer).run d
  | fetch page name next, d =>
    let (answer, d) := d.fetch page name
    (next answer).run d
  | release name next, d =>
    let (answer, d) := d.release name
    (next answer).run d
  | discardPage page next, d =>
    let (answer, d) := d.discardPage page
    (next answer).run d
  | discardTable table next, d =>
    let (answer, d) := d.discardTable table
    (next answer).run d
  | clear next, d => next.run d.clear

end RowStore
