import Appstore.Json.Unmarshal

namespace Appstore.Rabbitmq

open Appstore.Json

def messageTypeDeploymentRequest : String := "deployment.request"

def messageTypeDeploymentUpdate : String := "deployment.update"

def messageTypeDeploymentDelete : String := "deployment.delete"

/-- The envelope of every message: `time.Time` as `T`, the `json.RawMessage`
payload as its text. -/
structure Message (T : Type) where
  type : String
  id : String
  timestamp : T
  source : String
  payload : List Char

structure DeploymentRequestPayload (N : Type) where
  requestId : String
  teamId : String
  userId : String
  appName : String
  ns : String
  releaseName : String
  version : String
  values : Option (Fields N)

structure DeploymentUpdatePayload (N : Type) where
  requestId : String
  teamId : String
  userId : String
  name : String
  ns : String
  version : String
  values : Option (Fields N)

structure DeploymentDeletePayload where
  requestId : String
  teamId : String
  userId : String
  name : String
  ns : String
  deriving DecidableEq, Repr

variable {N T : Type} (nf : NumberFormat N) (tf : TimeFormat T)

def messageFields : List (GoField (Message T)) :=
  [stringField "type" fun v m ↦ { m with type := v },
   stringField "id" fun v m ↦ { m with id := v },
   timeField tf "timestamp" fun v m ↦ { m with timestamp := v },
   stringField "source" fun v m ↦ { m with source := v },
   rawField "payload" fun v m ↦ { m with payload := v }]

def requestFields : List (GoField (DeploymentRequestPayload N)) :=
  [stringField "requestId" fun v p ↦ { p with requestId := v },
   stringField "teamId" fun v p ↦ { p with teamId := v },
   stringField "userId" fun v p ↦ { p with userId := v },
   stringField "appName" fun v p ↦ { p with appName := v },
   stringField "namespace" fun v p ↦ { p with ns := v },
   stringField "releaseName" fun v p ↦ { p with releaseName := v },
   stringField "version" fun v p ↦ { p with version := v },
   mapField nf "values" (·.values) fun v p ↦ { p with values := v }]

def updateFields : List (GoField (DeploymentUpdatePayload N)) :=
  [stringField "requestId" fun v p ↦ { p with requestId := v },
   stringField "teamId" fun v p ↦ { p with teamId := v },
   stringField "userId" fun v p ↦ { p with userId := v },
   stringField "name" fun v p ↦ { p with name := v },
   stringField "namespace" fun v p ↦ { p with ns := v },
   stringField "version" fun v p ↦ { p with version := v },
   mapField nf "values" (·.values) fun v p ↦ { p with values := v }]

def deleteFields : List (GoField DeploymentDeletePayload) :=
  [stringField "requestId" fun v p ↦ { p with requestId := v },
   stringField "teamId" fun v p ↦ { p with teamId := v },
   stringField "userId" fun v p ↦ { p with userId := v },
   stringField "name" fun v p ↦ { p with name := v },
   stringField "namespace" fun v p ↦ { p with ns := v }]

def unmarshalMessage (cs : List Char) : Except String (Message T) :=
  unmarshalStruct "rabbitmq.Message" "Message" (messageFields tf) ⟨"", "", tf.zero, "", []⟩ cs

def unmarshalRequest (cs : List Char) : Except String (DeploymentRequestPayload N) :=
  unmarshalStruct "rabbitmq.DeploymentRequestPayload" "DeploymentRequestPayload" (requestFields nf)
    ⟨"", "", "", "", "", "", "", none⟩ cs

def unmarshalUpdate (cs : List Char) : Except String (DeploymentUpdatePayload N) :=
  unmarshalStruct "rabbitmq.DeploymentUpdatePayload" "DeploymentUpdatePayload" (updateFields nf)
    ⟨"", "", "", "", "", "", none⟩ cs

def unmarshalDelete (cs : List Char) : Except String DeploymentDeletePayload :=
  unmarshalStruct "rabbitmq.DeploymentDeletePayload" "DeploymentDeletePayload" deleteFields
    ⟨"", "", "", "", ""⟩ cs

end Appstore.Rabbitmq
