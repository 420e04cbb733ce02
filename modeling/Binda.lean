import Binda.Core.Messages
import Binda.Registry.Crash
import Binda.Registry.Quota
import Binda.Registry.Tamper
import Binda.Registry.Arbitration
import Binda.Registry.Account
import Binda.Registry.Capacity
import Binda.Registry.Retention
import Binda.Node.Update
import Binda.Node.Agreement
import Binda.Registry.Authentic
import Binda.Registry.Agree
import Binda.Node.Reply
import Binda.Registry.FirstFive
import Binda.Registry.Promotion
import Binda.Registry.Evidence
import Binda.Registry.Registered
import Binda.Registry.Confluence
import Binda.Node.Link
import Binda.Node.Datagram
import Binda.Node.Fit
import Binda.Core.Answers
import Binda.Core.Ntp
import Binda.Core.Hostname
import Binda.Core.Host
import Binda.Core.Records
import Binda.Node.Lookup
import Binda.Node.Pruning
import Binda.Node.Sections
import Binda.Node.Replies
import Binda.Node.Outage
import Binda.Node.Network
import Binda.Node.Spread
import Binda.Node.Delivery
import Binda.Core.Clock
import Binda.Node.Silence
