import QuicZig.Conn.SendDelivery
import QuicZig.Conn.SendPending
import QuicZig.Conn.RecvRun
import QuicZig.Conn.AckFrame
import QuicZig.Wire.HeaderRoundTrip
import QuicZig.Frame.RoundTrip
import QuicZig.Tls.RoundTrip
import QuicZig.Conn.EcnValidation
import QuicZig.Conn.DestinationCid
import QuicZig.Conn.Amplification
import QuicZig.Conn.ReplayRun
import QuicZig.Wire.PacketRoundTrip
import QuicZig.Conn.StreamCreditRun
import QuicZig.Conn.SendCreditRun
import QuicZig.Conn.ResetFlow
import QuicZig.Conn.StreamIdRun
import QuicZig.Conn.CryptoRecvRun
import QuicZig.Conn.CryptoSendRun
import QuicZig.Conn.KeyUpdateRun
import QuicZig.Conn.LocalCidRun
import QuicZig.Conn.InboundReclaimed
import QuicZig.Conn.InboundBlocked
import QuicZig.Conn.MaxStreamsRun
import QuicZig.Conn.SentPacketsRun
import QuicZig.Conn.CongestionRun
import QuicZig.Conn.ClosingRun
import QuicZig.Conn.Pmtud
import QuicZig.Conn.RecvFinal
import QuicZig.Server.TimersRun
import QuicZig.Tls.AntiReplayRun
import QuicZig.Server.SourceRateRun
import QuicZig.Wire.ChReassemblerRun
import QuicZig.Lb.CidRoundTrip
import QuicZig.Conn.KeyLimit
import QuicZig.Conn.SendDatagramsRun
import QuicZig.Server.RetryGateRun
import QuicZig.Server.RoutingRun
import QuicZig.Conn.ClockRun
import QuicZig.Conn.InFlightRun
import QuicZig.Conn.SendBytesRun
import QuicZig.Conn.RecvRollback
import QuicZig.Conn.SendAccount
import QuicZig.Conn.LossReference
import QuicZig.Conn.PacerRun
import QuicZig.Conn.AckDelay
import QuicZig.Conn.DeliveryReplay
import QuicZig.Conn.PersistentRun
import QuicZig.Conn.WindowedMax
import QuicZig.Conn.ReorderRun
import QuicZig.Conn.TokenExact
import QuicZig.Transport.Egress
import QuicZig.Conn.AlternativeAddress
import QuicZig.Conn.RttSamples
import QuicZig.Conn.HyStartRun
import QuicZig.Server.TlsLifecycle
import QuicZig.Server.TicketKeys
import QuicZig.Transport.Ingress
import QuicZig.Tls.ResumptionState
