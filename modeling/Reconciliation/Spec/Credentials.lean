import Reconciliation.Decode

namespace Reconciliation

structure DirectorSpec where
  url : String
  caCert : String := ""
  uaaUrl : String
  uaaCaCert : String := ""
  uaaClient : String
  /-- The name of a secret in the system namespace. -/
  uaaClientSecret : String
deriving DecidableEq, Repr

namespace DirectorSpec

def layout : Layout DirectorSpec :=
  DirectorSpec.mk <$> .required "url" .string <*> .optional "ca_cert" "" .string
    <*> .required "uaa_url" .string <*> .optional "uaa_ca_cert" "" .string
    <*> .required "uaa_client" .string <*> .required "uaa_client_secret" .string

def decode : Decoder DirectorSpec := layout.decode "DirectorSpec"

def toJson (s : DirectorSpec) : Json :=
  .obj [("url", .str s.url), ("ca_cert", .str s.caCert), ("uaa_url", .str s.uaaUrl),
    ("uaa_ca_cert", .str s.uaaCaCert), ("uaa_client", .str s.uaaClient),
    ("uaa_client_secret", .str s.uaaClientSecret)]

end DirectorSpec

structure TeamSpec where
  /-- The name of a Director record in the system namespace. -/
  director : String
deriving DecidableEq, Repr

namespace TeamSpec

def layout : Layout TeamSpec := TeamSpec.mk <$> .required "director" .string

def decode : Decoder TeamSpec := layout.decode "TeamSpec"

def toJson (s : TeamSpec) : Json := .obj [("director", .str s.director)]

def matching (a b : TeamSpec) : Bool := a == b

end TeamSpec

end Reconciliation
