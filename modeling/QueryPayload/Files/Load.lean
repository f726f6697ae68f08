import QueryPayload.Document.Decode
import QueryPayload.Log.Event
import QueryPayload.Report.ErrorList

/-!
# Loading payload files

## Main definitions

* `LoadedFile` — a file with its document, or with the reason why it has none.
* `LoadedFile.ofContent` — decodes what a file holds.
* `Loading.ofContent` — the same with the events that go with it.
-/

set_option relaxedAutoImplicit false
set_option autoImplicit false

namespace QueryPayload

/-- A file that has been loaded, or could not be. -/
structure LoadedFile where
  path : String
  result : Except ErrorChain Document
  deriving Repr

/-- A loaded file and the events that go with loading it. -/
structure Loading where
  file : LoadedFile
  events : List Log.Event
  deriving Repr

/-- The events that go with registering the fragments of a payload: one for each fragment before
the first clash, and one for the whole document if there is no clash. -/
def DocumentParts.events (parts : DocumentParts) : List Log.Event :=
  let (registry, clash) := FragmentRegistry.empty.addAll parts.fragments
  (registry.fragments.map fun f => .fragmentRegistered f.name f.filePath) ++
    match clash with
    | some _ => []
    | none =>
      [.documentDecoded parts.operations.length registry.size parts.typesUsed.length]

namespace LoadedFile

/-- A file with the outcome of decoding it. -/
def ofDecoded (path : String) : Except DecodeError Document → LoadedFile
  | .ok d => ⟨path, .ok d⟩
  | .error e => ⟨path, .error ((ErrorChain.of e.message).within ("Failed to decode " ++ path))⟩

/-- A file that holds the given bytes. -/
def ofContent (path : String) (bytes : List UInt8) : LoadedFile :=
  ofDecoded path (Document.ofText .stream bytes)

/-- A file that cannot be read, for a reason given in the words of the system. -/
def unreadable (path reason : String) : LoadedFile :=
  ⟨path, .error ((ErrorChain.of reason).within ("Failed to open " ++ path))⟩

/-- The events that go with having loaded a file. -/
def events (f : LoadedFile) : List Log.Event :=
  match f.result with
  | .ok d => [.fileLoaded d.operations.length f.path]
  | .error _ => []

end LoadedFile

namespace Loading

/-- Loads a file that holds the given bytes. -/
def ofContent (path : String) (bytes : List UInt8) : Loading :=
  let (parts, trailing) := Document.readParts bytes
  let file := LoadedFile.ofDecoded path (Document.conclude .stream bytes parts trailing)
  let decoding :=
    match parts with
    | .ok parts => parts.events
    | .error _ => []
  ⟨file, decoding ++ file.events⟩

@[simp] theorem file_ofContent (path : String) (bytes : List UInt8) :
    (ofContent path bytes).file = LoadedFile.ofContent path bytes := rfl

/-- Loads a file that cannot be read. -/
def unreadable (path reason : String) : Loading := ⟨.unreadable path reason, []⟩

end Loading

end QueryPayload
