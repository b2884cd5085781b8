import MoonlightPsp.ReedSolomon.RoundTrip
import MoonlightPsp.ReedSolomon.SharedContext
import MoonlightPsp.PacketRing.Spsc
import MoonlightPsp.RtpFec.Submission
import MoonlightPsp.RtpFec.DeferralRun
import MoonlightPsp.Reassembly.FecVouching
import MoonlightPsp.Reassembly.WaitExclusion
import MoonlightPsp.Reassembly.LossWindow
import MoonlightPsp.Avc.StreamInput
import MoonlightPsp.Avc.PlayerBuffers
import MoonlightPsp.SafetyBuffer.Rewind
import MoonlightPsp.SafetyBuffer.Retention
import MoonlightPsp.Audio.PcmOrder
import MoonlightPsp.Sps.LimitRefs
import MoonlightPsp.Sps.NormalizeMain
import MoonlightPsp.Control.InputLedger
import MoonlightPsp.Control.ReliableDelivery
import MoonlightPsp.Control.Authenticated
import MoonlightPsp.Rtsp.Nonces
import MoonlightPsp.Audio.FecRun
import MoonlightPsp.RtpFec.Traffic
import MoonlightPsp.RtpFec.DropCount
import MoonlightPsp.RtpFec.Status
import MoonlightPsp.Sps.FormatRoundTrip
import MoonlightPsp.Rtsp.ResponseFraming
import MoonlightPsp.Main.StartState
import MoonlightPsp.Main.ExitCleanup
import MoonlightPsp.HostInput.FollowsPad
import MoonlightPsp.Sps.PpsLanguage
import MoonlightPsp.Sps.FieldsInPayload
import MoonlightPsp.Detector.PpsDetector
import MoonlightPsp.Detector.SpsDetector
import MoonlightPsp.Detector.HeaderScan
import MoonlightPsp.Avc.MotionCapture
import MoonlightPsp.PacketRing.LiveTrim
import MoonlightPsp.Control.IdrSpacing
import MoonlightPsp.Bitrate.Bounds
import MoonlightPsp.Bitrate.Cooldown
import MoonlightPsp.RtpFec.EndToEnd
import MoonlightPsp.Bitrate.ConnectionQuality
import MoonlightPsp.Net.Jitter
import MoonlightPsp.Config.RoundTrip
import MoonlightPsp.GameList.ApplicationList
import MoonlightPsp.Rtsp.OwnSection
import MoonlightPsp.Pairing.InsideBuffers
import MoonlightPsp.Identity.Consistent
import MoonlightPsp.Upnp.Runs
import MoonlightPsp.Control.RoundTripTime
import MoonlightPsp.Config.StreamResolution
import MoonlightPsp.Sps.UnitRoundTrip
import MoonlightPsp.Pairing.CipherInverse
import MoonlightPsp.Identity.DigestStandard
import MoonlightPsp.Power.Events
import MoonlightPsp.Avc.DecodeGate
import MoonlightPsp.Avc.DisplayedFrame
import MoonlightPsp.Https.BinaryBody
import MoonlightPsp.Https.Launch
import MoonlightPsp.HostInput.MappingStore
import MoonlightPsp.Hosts.ListedHosts
import MoonlightPsp.Control.LifecycleLedger
import MoonlightPsp.Audio.PlaybackOrder
import MoonlightPsp.GameList.IconFresh
import MoonlightPsp.Launch.ConnectLaw
import MoonlightPsp.Net.VideoAdmission
