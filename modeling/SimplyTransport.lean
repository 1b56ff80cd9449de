import SimplyTransport.ConcurrencyRuns
import SimplyTransport.CliExclusion
import SimplyTransport.IdRangesDisjoint
import SimplyTransport.OrderedDict
import SimplyTransport.Selection
import SimplyTransport.TimeDateConversions
import SimplyTransport.RealtimeTables
import SimplyTransport.OverlayOrder
import SimplyTransport.DelaysService
import SimplyTransport.OverlayBatch
import SimplyTransport.RealtimeImporters
import SimplyTransport.RealtimeRecords
import SimplyTransport.RealtimeSnapshotRuns
import SimplyTransport.RealtimeVehicles
import SimplyTransport.Cancellation
import SimplyTransport.TripInstance
import SimplyTransport.StopTable
import SimplyTransport.CalendarResolution
import SimplyTransport.StopSchedule
import SimplyTransport.DelayRecording
import SimplyTransport.DelayCompleteness
import SimplyTransport.OrmImportQueue
import SimplyTransport.SnapshotSemantics
import SimplyTransport.RealtimeScheduleContracts
import SimplyTransport.ConcurrentSnapshots
import SimplyTransport.ResponseCache
import SimplyTransport.StaticImportRuns
import SimplyTransport.CacheKeyCollisions
import SimplyTransport.OverlaySpecification
import SimplyTransport.DelayedCalls
import SimplyTransport.ScheduleController
import SimplyTransport.WindowOrder
import SimplyTransport.TravelOrder
import SimplyTransport.VehicleAge
import SimplyTransport.CacheBusts
import SimplyTransport.DatasetIsolation
import SimplyTransport.Traversal
import SimplyTransport.RestrictedLookups
import SimplyTransport.SourcedRecords
import SimplyTransport.EntityIsolation
import SimplyTransport.DelayQueries
import SimplyTransport.SearchPages
import SimplyTransport.LatestStatistics
import SimplyTransport.StopMap
import SimplyTransport.AgencyMap
import SimplyTransport.CopyImport
import SimplyTransport.CsvLayouts
import SimplyTransport.VehiclesOnRoutes
import SimplyTransport.PaginationPages
import SimplyTransport.AccessTokens
import SimplyTransport.BearerTokens
import SimplyTransport.Escaping
import SimplyTransport.StopPopups
import SimplyTransport.StopFeatures
import SimplyTransport.CivilDate
import SimplyTransport.SeedTimeShift
import SimplyTransport.Documents
import SimplyTransport.JsonText
import SimplyTransport.IsoFormat
import SimplyTransport.CacheCodec
import SimplyTransport.SeparatedText
import SimplyTransport.AccessCookies
import SimplyTransport.AccessRenewal
import SimplyTransport.Retention
import SimplyTransport.DelayRetention
import SimplyTransport.EventLabels
import SimplyTransport.EventLog
import SimplyTransport.RouteMap
import SimplyTransport.StatisticsPages
import SimplyTransport.JsonLayout
import SimplyTransport.QuotedWords
import SimplyTransport.GeojsonCleaner
import SimplyTransport.MapEmbed
import SimplyTransport.LayerPanels
import SimplyTransport.References
import SimplyTransport.SurveyedStops
import SimplyTransport.DayStatistics
import SimplyTransport.TableSorting
import SimplyTransport.Enumerations
import SimplyTransport.ApiEnums
import SimplyTransport.StaticContracts
import SimplyTransport.ServedTables
