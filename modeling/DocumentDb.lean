import DocumentDb.Storage.Guards
import DocumentDb.Storage.Positions
import DocumentDb.Storage.Stability
import DocumentDb.Storage.ReadFailure
import DocumentDb.Documents.Updates
import DocumentDb.Documents.Evaluations
import DocumentDb.Documents.Insertion
import DocumentDb.Documents.BulkRequests
import DocumentDb.Documents.ScanFailure
import DocumentDb.Documents.ScanReports
import DocumentDb.Server.Requests
import DocumentDb.Server.WireReads
import DocumentDb.Client.Interleaving
import DocumentDb.Client.Filling
import DocumentDb.Client.FieldReads
import DocumentDb.Client.Queries
import DocumentDb.Client.CreatedRecords
import DocumentDb.Client.FilterArrays
import DocumentDb.Client.InitFile
import DocumentDb.Storage.Writes
import DocumentDb.Storage.OversizedItems
import DocumentDb.Storage.PageAccounting
import DocumentDb.Storage.FailedAccess
import DocumentDb.Documents.Crashes
import DocumentDb.Server.InterruptedDeletes
import DocumentDb.Client.Grammar
import DocumentDb.Client.Concurrency
import DocumentDb.Client.Grafting
import DocumentDb.Client.Session
import DocumentDb.Client.Buffers
import DocumentDb.Server.ReadSessions
import DocumentDb.Documents.Machine
