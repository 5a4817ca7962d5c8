import OssSdk.Foundation.Transition
import OssSdk.Foundation.AtomicMin
import OssSdk.Foundation.MachineInt
import OssSdk.Foundation.Bytes
import OssSdk.Foundation.Decimal
import OssSdk.Foundation.BigEndian
import OssSdk.Foundation.SortedMap
import OssSdk.Foundation.Cell
import OssSdk.Foundation.Framing
import OssSdk.Foundation.TableCrc
import OssSdk.Types
import OssSdk.Error
import OssSdk.Io.ByteWriter
import OssSdk.Utils.StringUtils
import OssSdk.Utils.CancellationTokenSource
import OssSdk.Retry.BackoffDelayer
import OssSdk.Utils.LogUtils
import OssSdk.Signer.HeaderOrder
import OssSdk.Signer.ListedHeaders
import OssSdk.Foundation.XorLinear
import OssSdk.Utils.HttpUtils
import OssSdk.Utils.DateUtils
import OssSdk.Utils.RangeHeader
import OssSdk.Utils.Base64Utils
import OssSdk.Utils.UrlSafeBase64
import OssSdk.Utils.DefaultScheduledExecutor
import OssSdk.Transport.HttpTypes
import OssSdk.Internal.ExecuteContext
import OssSdk.Signer.SignerUtils
import OssSdk.Signer.SignerV4
import OssSdk.Signer.SignerV1
import OssSdk.Signer.CanonicalRequest
import OssSdk.Signer.SignedHeaders
import OssSdk.Signer.HeaderSigning
import OssSdk.Signer.Resigning
import OssSdk.Internal.OSSUtils
import OssSdk.Internal.ClientImplBase
import OssSdk.Internal.Sync.ClientImpl
import OssSdk.Internal.Sync.Presign
import OssSdk.Internal.Async.AsyncExecuteStack
import OssSdk.Internal.StackAgreement
import OssSdk.Internal.Async.AsyncClientImpl
import OssSdk.Internal.Async.LiveClient
import OssSdk.Transport.Curl.CurlMultiTransport
import OssSdk.Internal.Async.ClientDestruction
import OssSdk.Transport.ResponseSink
import OssSdk.Transport.Curl.CurlHelper
import OssSdk.Transport.WinHttp.WinHttpHelper
import OssSdk.Transport.BodyDelivery
import OssSdk.Internal.SelectFrame
import OssSdk.Internal.FrameParser
import OssSdk.Internal.FrameStream
import OssSdk.Internal.SelectFrameDecoder
import OssSdk.Internal.SelectFrameChunks
import OssSdk.Internal.SelectFrameEncoding
import OssSdk.Transform.SerdeObjectSelect
import OssSdk.Transport.Curl.CurlHttpClient
import OssSdk.Foundation.Lines
import OssSdk.Client.InitiateMultipartUpload
import OssSdk.Transport.Curl.RequestHeaders
import OssSdk.Transport.Curl.SentAsSigned
import OssSdk.Internal.LastAttempt
import OssSdk.Internal.SentRequest
import OssSdk.Internal.RetryDiscipline
import OssSdk.Internal.AdditionalHeaders
import OssSdk.Client.OSSClientUtils
import OssSdk.Client.SelectObject
import OssSdk.Client.SelectOutcome
import OssSdk.Foundation.StreamCipher
import OssSdk.Io.ByteStream
import OssSdk.Crypto.AesCtrCipher
import OssSdk.Crypto.AesCtrContentCipher
import OssSdk.Crypto.SeekLaw
import OssSdk.Crypto.AesCtrCipherBuilder
import OssSdk.Client.GetObject
import OssSdk.Crypto.OSSEncryptionClient
import OssSdk.Crypto.MultipartEncryption
import OssSdk.Crypto.StoredObject
import OssSdk.Crypto.RangeDecryption
import OssSdk.Crypto.RangeMetadata
import OssSdk.Internal.ReportedHeaders
import OssSdk.Utils.QueryString
import OssSdk.Signer.PresignedUrl
import OssSdk.Signer.PresignedTwice
import OssSdk.Foundation.Pieces
import OssSdk.Internal.Url
import OssSdk.Internal.RequestPath
import OssSdk.Agentic.AgenticUtils
import OssSdk.Foundation.DotSegments
import OssSdk.Transport.Curl.RequestedPath
import OssSdk.Foundation.Conversation
import OssSdk.Internal.ReportedBody
import OssSdk.Io.SpanSource
import OssSdk.Io.ReadToEnd
import OssSdk.Transport.WinHttp.WinHttpAction
import OssSdk.Transport.WinHttp.WinHttpAsyncClient
import OssSdk.Transport.WinHttp.WinHttpClient
import OssSdk.Transport.WinHttp.BodyAgreement
import OssSdk.Transport.WinHttp.SendAgreement
import OssSdk.Io.StreamContent
import OssSdk.Transport.WinHttp.UploadedBody
import OssSdk.Transport.Curl.SentBody
import OssSdk.Io.OutputFile
import OssSdk.Client.GetObjectToFile
import OssSdk.Client.DownloadRun
import OssSdk.Client.DownloadedFile
import OssSdk.Client.DownloadIntegrity
import OssSdk.Internal.FrameLength
import OssSdk.Crypto.EnvelopeOutcome
import OssSdk.Client.ResumedRanges
import OssSdk.Transport.SinkTransport
import OssSdk.Client.FileLoop
import OssSdk.Client.ResumeProgress
import OssSdk.Internal.Sync.SharedClient
import OssSdk.Internal.Sync.ClockSkew
import OssSdk.Internal.Sync.ReportedEvent
import OssSdk.Internal.Sync.DisableRequest
import OssSdk.Transport.WinHttp.AsyncCompletion
import OssSdk.Client.FlushedDownload
import OssSdk.Foundation.Paging
import OssSdk.Transform.SerdeListing
import OssSdk.Utils.QueryParameters
import OssSdk.Transform.ListingDocument
import OssSdk.Client.ListOperations
import OssSdk.Client.Paginator
import OssSdk.Client.Pagination
import OssSdk.Crypto.CounterReference
import OssSdk.Io.CallerBuffer
import OssSdk.Io.ContentImpl
import OssSdk.Foundation.Meter
import OssSdk.Internal.ByteStreamUtils
import OssSdk.Internal.UploadChecksum
import OssSdk.Internal.ProgressReports
import OssSdk.Client.RequestBody
import OssSdk.Client.DownloadProgress
import OssSdk.Foundation.LastWord
import OssSdk.Internal.FramingAgreement
import OssSdk.Transform.MetaFrames
import OssSdk.Internal.ShortWrites
import OssSdk.Utils.RangeGrammar
import OssSdk.Foundation.Utf8
import OssSdk.Transport.Curl.ReceivedHeaders
import OssSdk.Transport.WinHttp.ResponseHeaders
import OssSdk.Transport.WinHttp.SentHeaders
import OssSdk.Internal.UrlAuthority
import OssSdk.Internal.EndpointAuthority
import OssSdk.Internal.PrintedUrl
import OssSdk.Foundation.Json
import OssSdk.Crypto.RsaMasterCipher
import OssSdk.Foundation.Xml
import OssSdk.Utils.XmlUtils
import OssSdk.Transform.SerdeObjectTagging
import OssSdk.Transform.SerdeBucketReferer
import OssSdk.Transform.SerdeObjectBasic
import OssSdk.Transform.RequestDocument
import OssSdk.Foundation.Wakeups
import OssSdk.Transport.Curl.HandlePool
import OssSdk.Foundation.Parties
import OssSdk.Utils.Executor
import OssSdk.Utils.PooledThreadExecutor
import OssSdk.Utils.PoolAtRest
import OssSdk.Utils.DefaultExecutor
import OssSdk.Client.AsyncCall
import OssSdk.Signer.ListedHeaders
import OssSdk.Foundation.XorLinear
import OssSdk.Utils.CRC64Words
import OssSdk.Utils.CRC64Combine
import OssSdk.Foundation.Blocks
import OssSdk.Foundation.BlockDigest
import OssSdk.Foundation.DigestStandards
import OssSdk.Hash.BlockHash
import OssSdk.Hash.Streaming
import OssSdk.Hash.HashWords
import OssSdk.Hash.Md5
import OssSdk.Hash.Sha1
import OssSdk.Hash.Sha256
import OssSdk.Hash.HashUtils
import OssSdk.Signer.SignatureCovers
import OssSdk.Utils.CancellationToken
import OssSdk.Utils.CancellationWakeups
import OssSdk.Transform.StrPair
