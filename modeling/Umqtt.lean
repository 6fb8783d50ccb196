import Umqtt.FieldLengths
import Umqtt.Announced
import Umqtt.Reencoding
import Umqtt.Borrowed
import Umqtt.Prefixes
import Umqtt.Packetview.RemainingLength
import Umqtt.Packetview.TopicIterator
import Umqtt.Limit
import Umqtt.NanoClient.Publishing
import Umqtt.NanoClient.Gate
import Umqtt.NanoClient.Promptness
import Umqtt.NanoClient.Acknowledge
import Umqtt.NanoClient.Outbound
import Umqtt.NanoClient.FullBuffer
import Umqtt.NanoClient.Bounded
import Umqtt.NanoClient.KeepAlive
import Umqtt.NanoClient.Deadline
import Umqtt.NanoClient.Isolation
import Umqtt.NanoClient.RunClient
import Umqtt.NanoClient.Reconnect
import Umqtt.NanoClient.Outgoing
import Umqtt.NanoClient.Refinement
import Umqtt.NanoClient.Cancellation
import Umqtt.NanoClient.Results
import Umqtt.NanoClient.Schedule
import Umqtt.NanoClient.Deliveries
import Umqtt.NanoClient.Epoch
import Umqtt.NanoClient.Larger
import Umqtt.NanoClient.Refused
import Umqtt.NanoClient.Liveness
