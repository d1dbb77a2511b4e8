import Appstore.Json.Value
import Appstore.Json.Encode
import Appstore.Json.Decode
import Appstore.Json.Unmarshal
import Appstore.Json.RoundTrip
import Appstore.Api.AppDeployment
import Appstore.Kube.ApiServer
import Appstore.Kube.Writes
import Appstore.Helm.Client
import Appstore.Controller.Values
import Appstore.Controller.World
import Appstore.Controller.Reconcile
import Appstore.Controller.Effects
import Appstore.Controller.Ownership
import Appstore.Controller.StatusWrites
import Appstore.Controller.Deletion
import Appstore.Controller.Idempotence
import Appstore.Controller.Progress
import Appstore.Controller.ReleaseStatus
import Appstore.Rabbitmq.Message
import Appstore.Rabbitmq.Handler
import Appstore.Rabbitmq.Interleaving
import Appstore.Rabbitmq.Redelivery
import Appstore.Rabbitmq.Consumer
import Appstore.Rabbitmq.Publisher
import Appstore.Rabbitmq.Broker
import Appstore.Backend.Deployment
import Appstore.Backend.EndToEnd
import Appstore.Rabbitmq.Connection
import Appstore.Os.Filepath
import Appstore.Os.FileSystem
import Appstore.Chartsync.Syncer
import Appstore.Chartsync.MirrorLock
import Appstore.Operator
