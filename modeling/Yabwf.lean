import Yabwf.Lib.Memory
import Yabwf.Lib.Run
import Yabwf.Lib.Fifo
import Yabwf.Lib.Ledger
import Yabwf.Lib.Compaction
import Yabwf.Lib.Lexical
import Yabwf.Lib.Linked
import Yabwf.Lib.Stretch
import Yabwf.Lib.Buckets
import Yabwf.Lib.Span
import Yabwf.Lib.CString
import Yabwf.Lib.Lines
import Yabwf.Lib.Chains
import Yabwf.Globals
import Yabwf.Util
import Yabwf.Alias
import Yabwf.Clean
import Yabwf.ScriptAlias
import Yabwf.ScriptHistory
import Yabwf.Containment
import Yabwf.AliasSearch
import Yabwf.ScriptKind
import Yabwf.Buffer
import Yabwf.Escapes
import Yabwf.InPlace
import Yabwf.StripPrefix
import Yabwf.StripInline
import Yabwf.Response
import Yabwf.Range
import Yabwf.Lengths
import Yabwf.Ranges
import Yabwf.RangeGrammar
import Yabwf.RangePool
import Yabwf.Cgi
import Yabwf.Get
import Yabwf.Dates
import Yabwf.Log
import Yabwf.Pipe
import Yabwf.Request
import Yabwf.RequestLine
import Yabwf.Read
import Yabwf.Process
import Yabwf.Output
import Yabwf.QueuedText
import Yabwf.MovedPage
import Yabwf.HeaderEnd
import Yabwf.Handlers
import Yabwf.Shuffle
import Yabwf.Scripts
import Yabwf.Release
import Yabwf.Transfer
import Yabwf.Visit
import Yabwf.Body
import Yabwf.PipeBuffer
import Yabwf.CgiHead
import Yabwf.Redirect
import Yabwf.Relay
import Yabwf.Engines
import Yabwf.Multirange
import Yabwf.Parsing
import Yabwf.HeaderFields
import Yabwf.EnvNames
import Yabwf.Queue
import Yabwf.Waiting
import Yabwf.Pipelining
import Yabwf.MmapCache
import Yabwf.Server
import Yabwf.Lib.Slots
import Yabwf.Poll
import Yabwf.PollTable
import Yabwf.Reload
import Yabwf.Environment
import Yabwf.ErrorLog
import Yabwf.Progress
import Yabwf.HeaderText
import Yabwf.Quoted
import Yabwf.Decoding
import Yabwf.Numerals
import Yabwf.HostNames
import Yabwf.Argv
import Yabwf.Config
import Yabwf.MimeTypes
import Yabwf.IndexDir
import Yabwf.Links
import Yabwf.Markup
import Yabwf.WorkingDir
import Yabwf.Cursors
import Yabwf.HashTables
import Yabwf.Standing
import Yabwf.ClientStream
import Yabwf.Lib.Messages
import Yabwf.Rounds
import Yabwf.Select
import Yabwf.SelectSets
import Yabwf.Shutdown
import Yabwf.Answers
import Yabwf.Timeouts
import Yabwf.Descriptors
import Yabwf.Leaks
import Yabwf.CachedListing
import Yabwf.NeedsEscape
