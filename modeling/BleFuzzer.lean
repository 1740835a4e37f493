import BleFuzzer.Common.Bytes
import BleFuzzer.Common.AirPacket
import BleFuzzer.Common.RingView
import BleFuzzer.Common.Framing
import BleFuzzer.Common.System
import BleFuzzer.Common.Aead
import BleFuzzer.Common.Exec
import BleFuzzer.Common.InFlight
import BleFuzzer.Common.Spans
import BleFuzzer.Common.Mealy
import BleFuzzer.Bridge.Fifo
import BleFuzzer.Bridge.FifoQueue
import BleFuzzer.Bridge.Phy
import BleFuzzer.Bridge.Uart
import BleFuzzer.Bridge.Tx
import BleFuzzer.Bridge.RecvPacket
import BleFuzzer.Bridge.SeqNum
import BleFuzzer.Bridge.Pump
import BleFuzzer.Bridge.Delivery
import BleFuzzer.Bridge.ResultCode
import BleFuzzer.Bridge.RxPduCopy
import BleFuzzer.Bridge.Drain
import BleFuzzer.Scapy.Packet
import BleFuzzer.Scapy.Wire
import BleFuzzer.Driver.Nrf52
import BleFuzzer.Driver.Receive
import BleFuzzer.Serial.HostToBridge
import BleFuzzer.Serial.HostSession
import BleFuzzer.Serial.BridgeToHost
import BleFuzzer.Serial.RecvBuffer
import BleFuzzer.Mapper.Basic
import BleFuzzer.Mapper.Packets
import BleFuzzer.Mapper.Crypto
import BleFuzzer.Mapper.Symbols
import BleFuzzer.Mapper.Receive
import BleFuzzer.Mapper.RspComplete
import BleFuzzer.Mapper.Step
import BleFuzzer.Mapper.Classes
import BleFuzzer.Mapper.Effects
import BleFuzzer.Mapper.Encryption
import BleFuzzer.Mapper.Counters
import BleFuzzer.Link.RoundTrip
import BleFuzzer.Link.Authenticity
import BleFuzzer.Link.Agreement
import BleFuzzer.Link.Session
import BleFuzzer.Link.InOrder
import BleFuzzer.Mapper.Retry
import BleFuzzer.Mapper.MealySul
import BleFuzzer.Mapper.Glitches
import BleFuzzer.Mapper.RetryFlag
import BleFuzzer.Mapper.Agree
import BleFuzzer.Mapper.FreshTest
import BleFuzzer.Mapper.VisibleSymbols
import BleFuzzer.Mapper.Passes
import BleFuzzer.Mapper.ReceiveTime
import BleFuzzer.Mapper.InvalidMic
import BleFuzzer.Mapper.CryptoState
import BleFuzzer.Mapper.Windows
import BleFuzzer.Mapper.EncReqFold
import BleFuzzer.Mapper.SessionMaterial
import BleFuzzer.Mapper.Primitives
import BleFuzzer.Mapper.OwnConnection
import BleFuzzer.Mapper.ResetBreaks
