import Vumi2.Lib.Effect
import Vumi2.Lib.Dict
import Vumi2.Lib.Machine
import Vumi2.Lib.Text
import Vumi2.Lib.StreamDecoder
import Vumi2.Lib.Regex
import Vumi2.Lib.Codecs
import Vumi2.Lib.Iso2022jp
import Vumi2.MessageCaches
import Vumi2.ExpiringMap
import Vumi2.Lib.Base64
import Vumi2.Lib.JsonText
import Vumi2.Wire.RoundTrip
import Vumi2.Lib.Attrs
import Vumi2.Lib.Framing
import Vumi2.TurnChannelsApi.Failures
import Vumi2.TurnChannelsApi.Statuses
import Vumi2.Smpp.Codecs
import Vumi2.Smpp.SubmitShortMessage
import Vumi2.Smpp.ShortMessage
import Vumi2.Smpp.Client
import Vumi2.TransportEvents
import Vumi2.HttpRpc.Tables
import Vumi2.Smpp.Correlation
import Vumi2.Smpp.WireLimits
import Vumi2.Smpp.Receipts
import Vumi2.Smpp.Outcomes
import Vumi2.Smpp.ReceiptTexts
import Vumi2.Smpp.TextFields
import Vumi2.Smpp.DeclaredParts
import Vumi2.Smpp.RoundTrip
import Vumi2.Smpp.DefaultAlphabet
import Vumi2.Connectors.Draining
import Vumi2.Routers.Events
import Vumi2.Config.Layers
import Vumi2.JunebugMessageApi.Answers
import Vumi2.Lib.Retry
import Vumi2.Lib.Lowercase
import Vumi2.MappingContract
import Vumi2.LastInbound
import Vumi2.ReplyRoutes
import Vumi2.Routers.Routes
import Vumi2.Smpp.Segments
import Vumi2.TurnChannelsApi.Delivery
import Vumi2.JunebugMessageApi.Events
import Vumi2.Config.CommandLine
import Vumi2.Smpp.References
import Vumi2.Smpp.Capacity
import Vumi2.Config.Structuring
import Vumi2.Config.Sources
import Vumi2.Config.Options
import Vumi2.Network.Events
import Vumi2.Smpp.Delivery
import Vumi2.Lib.UrlEncoding
import Vumi2.Lib.Xml
import Vumi2.Smpp.Reporting
import Vumi2.Smpp.Alone
import Vumi2.HttpRpc.AatUssd
import Vumi2.ClassHelpers
import Vumi2.Middlewares
import Vumi2.Smpp.Watchdog
