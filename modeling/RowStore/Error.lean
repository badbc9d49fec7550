import RowStore.Address

/-!
# Errors and broken contracts

An operation fails in one of two ways.

An `Error` is a reported cause: the caller gets it as an answer and may go on.  Its text is
`Error.message`, and `Error.isNotFound` singles out the causes that say that something addressed
does not exist.

A `Violation` is a broken promise of the caller, such as a column index that is not one of the
row's.  No answer is defined after it, so it ends the run.  A computation in which both can occur
answers `Except Failure`; one that can only report answers `Except Error`, and lifts into the
former.
-/

namespace RowStore

/-- Why an input or output operation failed: the data end too early, a file name contains the
character zero, a file length is out of range, or the file system refuses. -/
inductive IoCause where
  | endOfFile
  | zeroInName
  | lengthOutOfRange
  | fileSystem
  deriving DecidableEq, Repr

/-- The causes that operations report. -/
inductive Error where
  | io (cause : IoCause)
  | tableNotFound (table : String)
  | columnNotFound (name : String)
  | columnOutOfRange (index width : Nat)
  | pageNotFound (page : PageId)
  | recordNotFound (record : RecordId)
  | pageCorrupted (page : PageId) (reason : String)
  | pageFull (page : PageId)
  | poolFull
  | typeMismatch (expected actual : String)
  | unsupported (operation : String)
  | notOpen (call : String)
  | exhausted
  | configuration (reason : String)
  | invalidParameter (name value : String)
  deriving DecidableEq, Repr

/-- The text of a failed input or output operation. -/
def IoCause.message : IoCause → String
  | .endOfFile => "unexpected end of file"
  | .zeroInName => "file name contained an unexpected NUL byte"
  | .lengthOutOfRange => "number too large to fit in target type"
  | .fileSystem => "refused by the file system"

/-- The text that is shown for an error. -/
def Error.message : Error → String
  | .io cause => "I/O error: " ++ cause.message
  | .tableNotFound table => "Table not found: " ++ table
  | .columnNotFound name => "Field not found: " ++ name
  | .columnOutOfRange index width =>
    "Field index " ++ toString index ++ " out of range for schema with " ++ toString width
      ++ " fields"
  | .pageNotFound page => "Page not found: " ++ page.text
  | .recordNotFound record => "Tuple not found: " ++ record.text
  | .pageCorrupted page reason => "Page corrupted: " ++ page.text ++ ", reason: " ++ reason
  | .pageFull page => "Page full, unable to insert tuple into " ++ page.text
  | .poolFull => "Buffer pool full, unable to allocate frame"
  | .typeMismatch expected actual =>
    "Type mismatch: expected " ++ expected ++ ", got " ++ actual
  | .unsupported operation => "Unsupported operation: " ++ operation
  | .notOpen call => "Iterator not open: " ++ call ++ " called before open"
  | .exhausted => "No more tuples"
  | .configuration reason => "Configuration error: " ++ reason
  | .invalidParameter name value => "Invalid parameter: " ++ name ++ " = " ++ value

/-- Whether an error says that what was addressed does not exist. -/
def Error.isNotFound : Error → Bool
  | .tableNotFound _ | .columnNotFound _ | .columnOutOfRange _ _ | .pageNotFound _
  | .recordNotFound _ => true
  | _ => false

/-- The promises that a caller can break. -/
inductive Violation where
  /-- A schema without columns. -/
  | emptySchema
  /-- Rows that occupy no bytes. -/
  | emptyRow
  /-- Pages that occupy no bytes. -/
  | emptyPage
  /-- A row of the wrong number of fields for its schema. -/
  | rowWidth (expected actual : Nat)
  /-- A field position outside of the row. -/
  | fieldOutOfRange (index width : Nat)
  /-- A size that is beyond what can be counted or held. -/
  | sizeOutOfRange (size : Nat)
  deriving DecidableEq, Repr

/-- Why a computation did not finish. -/
inductive Failure where
  | error (cause : Error)
  | violation (promise : Violation)
  deriving DecidableEq, Repr

/-- A reported error as a failure. -/
def liftError {α : Type} : Except Error α → Except Failure α
  | .ok a => .ok a
  | .error e => .error (.error e)

instance : MonadLift (Except Error) (Except Failure) where
  monadLift := liftError

end RowStore
