import ParquetKeyManagement.Factory.System
import ParquetKeyManagement.Kms.Expiry
import ParquetKeyManagement.Factory.Panics
import ParquetKeyManagement.Factory.RoundTrip
import ParquetKeyManagement.Factory.Instances
import ParquetKeyManagement.Factory.TokenIsolation
import ParquetKeyManagement.Factory.Transparency
import ParquetKeyManagement.DataFusion.ColumnKeys
import ParquetKeyManagement.DataFusion.Options
import ParquetKeyManagement.Kms.Threads
import ParquetKeyManagement.Kms.Deadlock
import ParquetKeyManagement.Kms.TokenRefresh
import ParquetKeyManagement.Kms.Alone
import ParquetKeyManagement.Factory.FailedRetrieval
import ParquetKeyManagement.Factory.SharedConfig
import ParquetKeyManagement.Factory.FewestCalls
import ParquetKeyManagement.Kms.NoCleanup
import ParquetKeyManagement.Kms.Lifetimes
import ParquetKeyManagement.Keys.ForeignMaterial
import ParquetKeyManagement.Kms.BoundedCleanup
import ParquetKeyManagement.DataFusion.Extension
import ParquetKeyManagement.Factory.Programs
import ParquetKeyManagement.Factory.Completion
import ParquetKeyManagement.Factory.ConcurrentKeys
import ParquetKeyManagement.Factory.KekRotation
import ParquetKeyManagement.Factory.Failures
import ParquetKeyManagement.Factory.TestRuns
import ParquetKeyManagement.Factory.WriterIsolation
import ParquetKeyManagement.DataFusion.Tables
import ParquetKeyManagement.Factory.CacheReuse
import ParquetKeyManagement.Factory.KekReuse
