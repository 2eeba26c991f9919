import Msm8909w.Lib.Prog
import Msm8909w.Lib.Bytes
import Msm8909w.Gpt.Device
import Msm8909w.Gpt.GptUtils
import Msm8909w.Gpt.Spec
import Msm8909w.Gpt.Header
import Msm8909w.Gpt.Swap
import Msm8909w.Gpt.Update
import Msm8909w.Gpt.Stages
import Msm8909w.Gpt.Transfers
import Msm8909w.Dtbtool.ChipList
import Msm8909w.Dtbtool.Image
import Msm8909w.Logo.Rle24
import Msm8909w.Lib.Dict
import Msm8909w.MetaImage.Image
import Msm8909w.Lib.Lines
import Msm8909w.Softap.Config
import Msm8909w.Softap.Commands
import Msm8909w.Softap.Passes
import Msm8909w.Softap.SecurityMode
import Msm8909w.Lib.Runs
import Msm8909w.LocSync.SyncReq
import Msm8909w.LocSync.Slots
import Msm8909w.LocSync.Answers
import Msm8909w.LocSync.Deliveries
import Msm8909w.Lib.Ledger
import Msm8909w.Power.Utils
import Msm8909w.Rmnet.Librmnetctl
import Msm8909w.Power.Power
import Msm8909w.Lib.Search
import Msm8909w.Map.MapUtils
import Msm8909w.Map.BmessageSMS
import Msm8909w.Dun.Downlink
import Msm8909w.Dun.Uplink
import Msm8909w.Sap.Request
import Msm8909w.Sap.Uplink
import Msm8909w.Lib.Loop
import Msm8909w.Map.MasAppParams
import Msm8909w.Map.AppParamItems
import Msm8909w.Map.ContactCache
import Msm8909w.Map.Handles
import Msm8909w.Map.MmsPush
import Msm8909w.Map.ObexServer
import Msm8909w.Lib.Comparison
import Msm8909w.Map.Observer
import Msm8909w.Map.ObserverEvents
import Msm8909w.Map.Mns
import Msm8909w.Map.MnsRegistration
import Msm8909w.Map.MnsSending
import Msm8909w.Map.EmailAccounts
import Msm8909w.Dtbtool.ChipAdd
import Msm8909w.Dtbtool.TableOrder
import Msm8909w.LocApi.LocApiV02
import Msm8909w.Map.EmailObserver
import Msm8909w.Pxp.PxpMonitor
import Msm8909w.A4wp.Params
import Msm8909w.A4wp.A4wpService
import Msm8909w.Lib.Tokens
import Msm8909w.Lib.Numerals
import Msm8909w.Dtbtool.GetChipInfo
import Msm8909w.Lib.Paths
import Msm8909w.Ftp.FileUtils
import Msm8909w.Ftp.FtpObexServer
import Msm8909w.Lib.Walk
import Msm8909w.Rmnet.Contents
import Msm8909w.Power.HintList
import Msm8909w.Softap.RoundTrip
import Msm8909w.Softap.Channel
import Msm8909w.Softap.WepKey
import Msm8909w.Softap.MacAddress
import Msm8909w.Softap.MacList
import Msm8909w.Softap.AddMac
import Msm8909w.Datatop.Helpers
import Msm8909w.Lib.Replace
import Msm8909w.Map.RecipientVCard
import Msm8909w.Map.BmessageReaders
import Msm8909w.Map.BmessageWriters
import Msm8909w.Map.BmessageMMS
import Msm8909w.Sap.Downlink
import Msm8909w.Map.AppParamBytes
import Msm8909w.Map.Folders
import Msm8909w.Map.FolderTree
import Msm8909w.Map.Listing
import Msm8909w.Lib.Fallible
import Msm8909w.Map.MsgFilters
import Msm8909w.Map.OwnVerdict
import Msm8909w.Ftp.Download
import Msm8909w.Ftp.Upload
import Msm8909w.Map.ListingTotals
import Msm8909w.Map.MceOperations
import Msm8909w.Map.MimeBody
import Msm8909w.Lib.Utf8
import Msm8909w.Map.BodyLength
import Msm8909w.Map.ForeignHandles
import Msm8909w.Lib.Quoting
import Msm8909w.Map.ConditionString
import Msm8909w.Map.DeliverPdu
import Msm8909w.LocApi.Requests
import Msm8909w.LocApi.Xtra
import Msm8909w.LocApi.StartFix
import Msm8909w.LocApi.AgpsCert
import Msm8909w.LocApi.SupportedMsgs
import Msm8909w.LocApi.SvReport
import Msm8909w.LocApi.Batching
import Msm8909w.LocApi.Zpp
import Msm8909w.Ftp.DeleteDirectory
import Msm8909w.Lib.Xml
import Msm8909w.Lib.XmlPages
import Msm8909w.Ftp.FolderListing
import Msm8909w.Ftp.Session
import Msm8909w.A4wp.Charging
import Msm8909w.LocApi.GnssClock
import Msm8909w.Pxp.PathLoss
import Msm8909w.Pxp.PathLossAlerts
import Msm8909w.Pxp.Close
import Msm8909w.Decrypt.IsEncrypted
import Msm8909w.Decrypt.DecryptImage
import Msm8909w.DsClient.CtrlPoint
import Msm8909w.DsClient.OpenCall
import Msm8909w.DsClient.Sessions
import Msm8909w.LocApi.ClientHandles
import Msm8909w.LocApi.ClientRuns
import Msm8909w.Sap.Received
import Msm8909w.Gpt.SwapTwice
import Msm8909w.Gpt.Inside
import Msm8909w.Gpt.Confined
import Msm8909w.Datatop.LineParsers
import Msm8909w.Datatop.Str
import Msm8909w.Datatop.DualLine
import Msm8909w.Datatop.OwnValues
import Msm8909w.Softap.Handlers
import Msm8909w.Softap.MacFiles
import Msm8909w.Datatop.GenPoll
import Msm8909w.Datatop.Periodic
import Msm8909w.Datatop.TimeSeries
import Msm8909w.Lib.ReportDescriptor
import Msm8909w.Hid.Wrappers
import Msm8909w.Hid.Keyboard
import Msm8909w.Hid.Mouse
import Msm8909w.Hid.Service
import Msm8909w.Hid.ReportCache
import Msm8909w.Hid.Answers
