import MessageBroker.Text.Blank
import MessageBroker.Text.Utf8
import MessageBroker.Text.Quote
import MessageBroker.Text.Hex
import MessageBroker.Text.Terminal
import MessageBroker.Text.Decimal
import MessageBroker.Text.Split
import MessageBroker.Text.Json
import MessageBroker.Queue
import MessageBroker.Offset
import MessageBroker.Topic.Name
import MessageBroker.Error
import MessageBroker.MessageId
import MessageBroker.Clock
import MessageBroker.Log.Message
import MessageBroker.Log.Partition
import MessageBroker.Log.Topic
import MessageBroker.Log.Cursor
import MessageBroker.Log.Workbench
import MessageBroker.Storage
import MessageBroker.Subscription
import MessageBroker.Broker
import MessageBroker.Client.Session
import MessageBroker.Config
import MessageBroker.Wire.Bytes
import MessageBroker.Wire.Field
import MessageBroker.Wire.Request
import MessageBroker.Wire.Reply
import MessageBroker.Wire.Frame
import MessageBroker.Net.Address
import MessageBroker.Net.Network
import MessageBroker.Net.Connection
import MessageBroker.Net.Server
import MessageBroker.Cli.Similarity
import MessageBroker.Cli.Style
import MessageBroker.Cli.Options
import MessageBroker.Cli.Parse
import MessageBroker.Cli.Run
import MessageBroker.Main
import MessageBroker.Proofs.PartitionLog
import MessageBroker.Proofs.TopicLog
import MessageBroker.Proofs.StoreRun
import MessageBroker.Proofs.Publish
import MessageBroker.Proofs.Delivery
import MessageBroker.Proofs.TopicShape
import MessageBroker.Proofs.Lifecycle
import MessageBroker.Proofs.Utf8
import MessageBroker.Proofs.WireFields
import MessageBroker.Proofs.ReplyCodec
import MessageBroker.Proofs.RequestCodec
import MessageBroker.Proofs.MessageIdText
import MessageBroker.Proofs.Framing
import MessageBroker.Proofs.Routing
import MessageBroker.Proofs.Serving
import MessageBroker.Proofs.Truncation
import MessageBroker.Proofs.CursorReads
import MessageBroker.Proofs.Rotation
import MessageBroker.Proofs.Wakeup
import MessageBroker.Proofs.ProvisionText
import MessageBroker.Proofs.Provisioning
import MessageBroker.Proofs.Accounting
