import TagSearch.Workspace.Catalog

/-! Folders and files in memory, for programs that run without a real disk. -/
namespace TagSearch.Workspace

/-- A change that may fail as an operation; a failure changes nothing. -/
def change (f : Workspace → Except DiskError Workspace) : StateM Workspace (Except DiskError Unit) := fun w =>
  match f w with
  | .ok changed => (.ok (), changed)
  | .error e => (.error e, w)

def disk : Disk (StateM Workspace) where
  holds path := fun w => (w.holds (Text.bytes path), w)
  isFolder path := fun w => (w.isFolder (Text.bytes path), w)
  readText path := fun w => (w.readText (Text.bytes path), w)
  writeText path content := change fun w => w.write (Text.bytes path) (.text content)
  makeFolder path := change fun w => w.makeFolder (Text.bytes path)
  openCatalog path address := fun w => w.openCatalog path address
  writeCatalog file database := fun w => w.writeCatalog file database
  closeCatalog file := fun w => ((), w.closeCatalog file)
  readPicture path := fun w => (w.readPicture path, w)

end TagSearch.Workspace
