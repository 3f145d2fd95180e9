import Reconciliation.Decode

namespace Reconciliation

structure BaseImageSpec where
  imageName : String
  version : String
  url : String
  sha1 : String
deriving DecidableEq, Repr

namespace BaseImageSpec

def layout : Layout BaseImageSpec :=
  BaseImageSpec.mk <$> .required "baseImageName" .string <*> .required "version" .string
    <*> .required "url" .string <*> .required "sha1" .string

def decode : Decoder BaseImageSpec := layout.decode "BaseImageSpec"

def toJson (s : BaseImageSpec) : Json :=
  .obj [("baseImageName", .str s.imageName), ("version", .str s.version), ("url", .str s.url),
    ("sha1", .str s.sha1)]

def matching (a b : BaseImageSpec) : Bool := a == b

end BaseImageSpec

structure ReleaseSpec where
  releaseName : String
  version : String
  url : String
  sha1 : String
deriving DecidableEq, Repr

namespace ReleaseSpec

def layout : Layout ReleaseSpec :=
  ReleaseSpec.mk <$> .required "releaseName" .string <*> .required "version" .string
    <*> .required "url" .string <*> .required "sha1" .string

def decode : Decoder ReleaseSpec := layout.decode "ReleaseSpec"

def toJson (s : ReleaseSpec) : Json :=
  .obj [("releaseName", .str s.releaseName), ("version", .str s.version), ("url", .str s.url),
    ("sha1", .str s.sha1)]

def matching (a b : ReleaseSpec) : Bool := a == b

end ReleaseSpec

structure RoleSource where
  /-- The name of a Release record in the namespace of the role. -/
  release : String
  job : String
deriving DecidableEq, Repr

namespace RoleSource

def layout : Layout RoleSource :=
  RoleSource.mk <$> .required "release" .string <*> .required "job" .string

def decode : Decoder RoleSource := layout.decode "RoleSource"

def toJson (s : RoleSource) : Json := .obj [("release", .str s.release), ("job", .str s.job)]

end RoleSource

structure RoleSpec where
  source : RoleSource
  /-- Handed to the Director as they are. -/
  properties : Json := .null

namespace RoleSpec

def layout : Layout RoleSpec :=
  RoleSpec.mk <$> .required "source" RoleSource.decode <*> .optional "properties" .null .json

def decode : Decoder RoleSpec := layout.decode "RoleSpec"

def toJson (s : RoleSpec) : Json :=
  .obj (("source", s.source.toJson) ::
    Json.memberUnless s.properties.isNull "properties" s.properties)

end RoleSpec

end Reconciliation
