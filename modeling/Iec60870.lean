import Iec60870.Frame104Flow
import Iec60870.Frame104Stop
import Iec60870.Frame101Poll
import Iec60870.FileTransferApdu
import Iec60870.Driver104Service
import Iec60870.Frame104CleanStop
import Iec60870.RedundancyOwner
import Iec60870.Frame104Decode
import Iec60870.Frame101Emit
import Iec60870.Frame101Retry
import Iec60870.Driver101Resync
import Iec60870.Frame104Deliver
import Iec60870.Frame104HandshakeTimer
import Iec60870.Frame101Foreign
import Iec60870.FileTransferEnd
import Iec60870.FileTransferListing
import Iec60870.FileTransferUpload
import Iec60870.FileTransferLengths
import Iec60870.FileTransferChunks
import Iec60870.FileTransferCap
import Iec60870.Driver104Filter
import Iec60870.AsduAccept
import Iec60870.DeadbandPoints
import Iec60870.DeadbandOrder
import Iec60870.RedundancyFilter
import Iec60870.RedundancyReconnect
import Iec60870.ServerBroadcast
import Iec60870.ClientCommands
import Iec60870.ClientInterrogate
import Iec60870.Stations
