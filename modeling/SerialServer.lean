import SerialServer.Keys.Debounce
import SerialServer.Discovery.Exchange
import SerialServer.Discovery.Hubs
import SerialServer.Client.AddressPath
import SerialServer.Server.Judged
import SerialServer.Server.Answers
import SerialServer.Server.TableHistory
import SerialServer.Server.Sockets
import SerialServer.Server.Broadcasts
import SerialServer.Server.Stream
import SerialServer.Reporter.SlotMap
import SerialServer.Reporter.StatusLife
import SerialServer.Reporter.StatusExact
import SerialServer.Reporter.Published
import SerialServer.Reporter.NegotiationRuns
import SerialServer.Reporter.TelnetLoop
import SerialServer.Reporter.TransferDecode
import SerialServer.Reporter.TransferTimer
import SerialServer.Reporter.TransferPort
import SerialServer.Reporter.PortsTidy
import SerialServer.Reporter.PortsReload
import SerialServer.Reporter.LockRuns
import SerialServer.Reporter.Expand
import SerialServer.Replication.Status
import SerialServer.Replication.Requests
import SerialServer.Server.Refused
import SerialServer.Server.AddressChange
import SerialServer.Keys.Delivery
import SerialServer.Discovery.HubMask
import SerialServer.Discovery.ChangeIp
import SerialServer.Discovery.Multicast
import SerialServer.Discovery.PortNames
import SerialServer.Discovery.Pages
import SerialServer.Discovery.SocketStop
import SerialServer.Client.ErrorTest
import SerialServer.Keys.Gpio6
import SerialServer.Registers.Gpio8308
import SerialServer.Display.Oled
