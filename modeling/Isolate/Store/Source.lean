import Isolate.Store.Recording
import Isolate.Store.Tree

/-!
# Stores that modules are read from

A source of files is anything from which a file can be read by its path. Reading may change it, as it
does a store that counts.
-/

namespace Isolate.Store

/-- Stores from which files can be read. -/
class Source (σ : Type) where
  read : σ → Path → Except Error Bytes × σ

instance : Source Recording := ⟨Recording.read⟩
instance : Source Native := ⟨fun store path => (store.read path, store)⟩

end Isolate.Store
