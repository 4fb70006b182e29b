import MediaCatalog.Files.Sha256
import MediaCatalog.Files.Tree

/-!
Checksums tell files with different bytes apart.
-/

namespace MediaCatalog.Files

/-- The checksum of bytes: the name of the digest and the digest. -/
def checksumOf (bytes : ByteArray) : String :=
  "sha256-" ++ Sha256.hexDigest bytes

structure ChecksumError where
  path : FilePath
  fault : FileFault

namespace ChecksumError

def message (error : ChecksumError) : String :=
  "Cannot hash " ++ error.path.written ++ ": " ++ error.fault.message error.path

end ChecksumError

def FileTree.checksum (tree : FileTree) (path : FilePath) : Except ChecksumError String :=
  match tree.read path with
  | .ok bytes => .ok (checksumOf bytes)
  | .error fault => .error ⟨path, fault⟩

end MediaCatalog.Files
