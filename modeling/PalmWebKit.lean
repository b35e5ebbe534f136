import PalmWebKit.Cookie.ReturnRule
import PalmWebKit.Cookie.Recency
import PalmWebKit.Cookie.Purge
import PalmWebKit.Cookie.MaxAge
import PalmWebKit.Cookie.DomainClear
import PalmWebKit.Cookie.Initialisation
import PalmWebKit.JavaScript.JsonParse
import PalmWebKit.Network.StrictMatch
import PalmWebKit.Network.AuthHeaders
import PalmWebKit.Network.CredentialScope
import PalmWebKit.Network.NtlmMessage
import PalmWebKit.Network.DigestAnswer
import PalmWebKit.Network.SslVerification
import PalmWebKit.Network.PoolAccounting
import PalmWebKit.DiskCache.SizeAccounting
import PalmWebKit.Network.DeliveryOrder
import PalmWebKit.Network.CredentialReplay
import PalmWebKit.Network.AsyncProgress
import PalmWebKit.Editing.DirtyBit
import PalmWebKit.Editing.SpellFreshness
import PalmWebKit.Graphics.LayerTree
import PalmWebKit.Graphics.FontLiveness
import PalmWebKit.IndexedDB.KeyClasses
import PalmWebKit.IndexedDB.KeyComparison
import PalmWebKit.Storage.MoveCondition
import PalmWebKit.Storage.StorageQuota
import PalmWebKit.Media.RangeAlgebra
import PalmWebKit.Media.RangeOrder
import PalmWebKit.Loader.BufferRuns
import PalmWebKit.Text.ChunkedDecoding
import PalmWebKit.Graphics.RegionCompositions
import PalmWebKit.Memory.Accounting
import PalmWebKit.Css.FastMatching
import PalmWebKit.Css.AncestorFilter
import PalmWebKit.Csp.Headers
import PalmWebKit.Loader.CacheRuns
import PalmWebKit.History.BackForwardList
import PalmWebKit.Database.LockRuns
import PalmWebKit.Timers.TimerRuns
import PalmWebKit.Network.UploadBody
import PalmWebKit.Network.CacheHeaders
import PalmWebKit.CoreIPC.ArgumentRoundTrip
import PalmWebKit.Text.SegmentedRuns
import PalmWebKit.Platform.FileWrite
import PalmWebKit.DiskCache.ReaderRobustness
import PalmWebKit.DiskCache.EvictionOrder
import PalmWebKit.Editing.SpellCache
import PalmWebKit.Platform.SpanRuns
import PalmWebKit.Editing.MarkerCoverage
import PalmWebKit.Network.SocketStream
import PalmWebKit.Network.WebSocketCodec
import PalmWebKit.IndexedDB.PointerSafety
import PalmWebKit.Timers.SingletonTimer
import PalmWebKit.Decimal.Rounding
import PalmWebKit.Decimal.Arithmetic
import PalmWebKit.Decimal.Comparison
import PalmWebKit.Decimal.Division
import PalmWebKit.Dates.DateLimits
import PalmWebKit.Storage.KeyEnumeration
