import RowStore.Database
import RowStore.Proofs.Page.Decoding

/-!
# Which errors come from tables and files

Looking a table up, counting the pages of its file and reading one of them report few kinds of
errors (`Error.IsOfStorage`).  None of them says that the buffer pool is full, or that a value is of
the wrong type: whatever bytes a file holds, the values in them have the types of their columns.
-/

namespace RowStore

/-- The errors that say that a table, a file or a page is missing, unreadable or damaged. -/
def Error.IsOfStorage : Error → Prop
  | .io _ | .tableNotFound _ | .pageNotFound _ | .pageCorrupted _ _ | .invalidParameter _ _ => True
  | _ => False

lemma Catalog.isOfStorage_of_heapFile {c : Catalog} {table : TableId} {e : Error}
    (h : c.heapFile table = .error e) : e.IsOfStorage := by
  rw [heapFile, entry] at h
  split at h <;> cases h
  trivial

lemma Disk.isOfStorage_of_content {d : Disk} {path : String} {e : Error}
    (h : d.content path = .error e) : e.IsOfStorage := by
  rw [content] at h
  split at h <;> cases h
  trivial

namespace HeapFile

variable {f : HeapFile} {d : Disk} {e : Error}

lemma isOfStorage_of_pageCount (h : f.pageCount d = .error e) : e.IsOfStorage := by
  rw [pageCount, Disk.lengthOf] at h
  split at h
  · simp only [bind, Except.bind, PageLayout.pageCount] at h
    split at h <;> cases h
    trivial
  · simp only [bind, Except.bind, PageLayout.pageCount] at h
    split at h <;> cases h
    trivial
  · cases h
    trivial

lemma isOfStorage_of_decode {page : PageId} {schema : Schema} {layout : PageLayout} {data : Bytes}
    (h : Page.decode page schema layout data = .error e) : e.IsOfStorage := by
  simp only [Page.decode, bind, Except.bind] at h
  split at h
  · next e' hentries =>
    cases h
    obtain ⟨⟨image, slot⟩, -, hentry⟩ := exists_of_mapM_eq_error hentries
    simp only [Page.decodeEntry, Page.decodeRow] at hentry
    split at hentry
    · split at hentry <;> cases hentry
      trivial
    · cases hentry
  · cases h

/-- A page that is not given out is none of the file, or it is not found out how many pages there
are, or the file is not readable, or its bytes are not those of a page. -/
lemma readPage_eq_error {page : PageId} (h : f.readPage d page = .error e) :
    e = .pageNotFound page ∨ f.pageCount d = .error e ∨ d.content f.path = .error e ∨
      ∃ data, Page.decode page f.schema f.layout data = .error e := by
  simp only [readPage, bind, Except.bind, throw, throwThe, MonadExceptOf.throw] at h
  split at h
  · cases h
    exact .inl rfl
  split at h
  · next hcount =>
    cases h
    exact .inr (.inl hcount)
  split at h
  · cases h
    exact .inl rfl
  split at h
  · next hdata =>
    cases h
    simp only [Disk.read, bind, Except.bind] at hdata
    split at hdata <;> cases hdata
    exact .inr (.inr (.inl ‹_›))
  · exact .inr (.inr (.inr ⟨_, h⟩))

lemma isOfStorage_of_readPage {page : PageId} (h : f.readPage d page = .error e) :
    e.IsOfStorage := by
  rcases readPage_eq_error h with rfl | hcount | hcontent | ⟨data, hdata⟩
  · trivial
  · exact isOfStorage_of_pageCount hcount
  · exact Disk.isOfStorage_of_content hcontent
  · exact isOfStorage_of_decode hdata

/-- A file keeps rows of its schema, and its slots have room for them whatever the bytes are. -/
lemma readPage_ne_pageCorrupted (f : HeapFile) (d : Disk) (page place : PageId) (reason : String) :
    f.readPage d page ≠ .error (.pageCorrupted place reason) := by
  intro h
  rcases readPage_eq_error h with h | hcount | hcontent | ⟨data, hdata⟩
  · cases h
  · rw [pageCount, Disk.lengthOf] at hcount
    split at hcount
    · simp only [bind, Except.bind, PageLayout.pageCount] at hcount
      split at hcount <;> cases hcount
    · simp only [bind, Except.bind, PageLayout.pageCount] at hcount
      split at hcount <;> cases hcount
    · cases hcount
  · rw [Disk.content] at hcontent
    split at hcontent <;> cases hcontent
  · obtain ⟨p, hp⟩ := Page.exists_decode_of_size f.rowSize_eq page data
    cases hp.symm.trans hdata

end HeapFile

lemma Database.isOfStorage_of_loadPage {db : Database} {page : PageId} {e : Error}
    (h : db.loadPage page = .error e) : e.IsOfStorage := by
  rw [loadPage] at h
  rcases hfile : db.catalog.heapFile page.table with e' | file <;> rw [hfile] at h
  · cases h
    exact Catalog.isOfStorage_of_heapFile hfile
  · exact HeapFile.isOfStorage_of_readPage h

end RowStore
