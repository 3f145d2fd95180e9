import Reconciliation.Payload.Manifest
import Reconciliation.Remote
import Reconciliation.Step

/-! The part of a Director's state that records stand for: releases, stemcells, cloud-config
fragments and deployments. Every call is logged before it is answered, and a Director that is
failing rejects all of them. An upload succeeds if its address is known to yield an artifact. -/
namespace Reconciliation

inductive DirectorCall where
  | hasRelease (ref : ReleaseRef)
  | uploadRelease (url sha1 : String)
  | deleteRelease (ref : ReleaseRef)
  | hasStemcell (ref : ReleaseRef)
  | uploadStemcell (url sha1 : String)
  | deleteStemcell (ref : ReleaseRef)
  | updateCloudConfig (name : String)
  | deleteCloudConfig (name : String)
  | deploy (name : String)
  | deleteDeployment (name : String)
deriving DecidableEq, Repr

def DirectorCall.isMutation : DirectorCall → Bool
  | hasRelease _ | hasStemcell _ => false
  | _ => true

structure Director where
  releaseSources : Table String ReleaseRef := ∅
  stemcellSources : Table String ReleaseRef := ∅
  releases : Table ReleaseRef Unit := ∅
  stemcells : Table ReleaseRef Unit := ∅
  configs : Table String CloudConfig := ∅
  deployments : Table String Manifest := ∅
  calls : List DirectorCall := []
  /-- The reason for which every call is rejected. -/
  failure : Option String := none

/-- An object on a Director, as it is to be. -/
inductive RemoteObject where
  | fragment (name : String) (config : CloudConfig)
  | release (ref : ReleaseRef) (url sha1 : String)
  | stemcell (ref : ReleaseRef) (url sha1 : String)
  | deployment (name : String) (manifest : Manifest)

/-- What identifies an object on a Director. -/
inductive RemoteHandle where
  | fragment (name : String)
  | release (ref : ReleaseRef)
  | stemcell (ref : ReleaseRef)
  | deployment (name : String)
deriving DecidableEq, Repr

namespace Director

instance : Inhabited Director := ⟨{}⟩

/-- The answer to a call, given only if the Director is not failing. -/
def answer {α : Type} (call : DirectorCall) (f : Director → Except RemoteError α × Director) :
    Step Director RemoteError α :=
  .mk fun d =>
    let d := { d with calls := d.calls ++ [call] }
    match d.failure with
    | some reason => (.error (.rejected reason), d)
    | none => f d

def hasRelease (ref : ReleaseRef) : Step Director RemoteError Bool :=
  answer (.hasRelease ref) fun d => (.ok (d.releases.contains ref), d)

def uploadRelease (url sha1 : String) : Step Director RemoteError Unit :=
  answer (.uploadRelease url sha1) fun d =>
    match d.releaseSources.get? url with
    | some ref => (.ok (), { d with releases := d.releases.insert ref () })
    | none => (.error (.rejected ("cannot fetch release from '" ++ url ++ "'")), d)

def deleteRelease (ref : ReleaseRef) : Step Director RemoteError Unit :=
  answer (.deleteRelease ref) fun d => (.ok (), { d with releases := d.releases.erase ref })

def hasStemcell (ref : ReleaseRef) : Step Director RemoteError Bool :=
  answer (.hasStemcell ref) fun d => (.ok (d.stemcells.contains ref), d)

def uploadStemcell (url sha1 : String) : Step Director RemoteError Unit :=
  answer (.uploadStemcell url sha1) fun d =>
    match d.stemcellSources.get? url with
    | some ref => (.ok (), { d with stemcells := d.stemcells.insert ref () })
    | none => (.error (.rejected ("cannot fetch stemcell from '" ++ url ++ "'")), d)

def deleteStemcell (ref : ReleaseRef) : Step Director RemoteError Unit :=
  answer (.deleteStemcell ref) fun d => (.ok (), { d with stemcells := d.stemcells.erase ref })

def updateCloudConfig (name : String) (config : CloudConfig) : Step Director RemoteError Unit :=
  answer (.updateCloudConfig name) fun d =>
    (.ok (), { d with configs := d.configs.insert name config })

def deleteCloudConfig (name : String) : Step Director RemoteError Unit :=
  answer (.deleteCloudConfig name) fun d => (.ok (), { d with configs := d.configs.erase name })

def deploy (name : String) (manifest : Manifest) : Step Director RemoteError Unit :=
  answer (.deploy name) fun d =>
    (.ok (), { d with deployments := d.deployments.insert name manifest })

def deleteDeployment (name : String) : Step Director RemoteError Unit :=
  answer (.deleteDeployment name) fun d =>
    (.ok (), { d with deployments := d.deployments.erase name })

/-- Brings an object into place. Releases and stemcells never change, so that one that is there
already is left alone; fragments and deployments are replaced. -/
def ensure : RemoteObject → Step Director RemoteError Unit
  | .fragment name config => updateCloudConfig name config
  | .release ref url sha1 => do
    if !(← hasRelease ref) then uploadRelease url sha1
  | .stemcell ref url sha1 => do
    if !(← hasStemcell ref) then uploadStemcell url sha1
  | .deployment name manifest => deploy name manifest

/-- Takes an object away if it is there. -/
def remove : RemoteHandle → Step Director RemoteError Unit
  | .fragment name => deleteCloudConfig name
  | .release ref => do
    if ← hasRelease ref then deleteRelease ref
  | .stemcell ref => do
    if ← hasStemcell ref then deleteStemcell ref
  | .deployment name => deleteDeployment name

end Director

end Reconciliation
