import RedisS2Geo.Foundation.BoundedLoop
import RedisS2Geo.Foundation.ByteString
import RedisS2Geo.Foundation.Contexts
import RedisS2Geo.Foundation.CellForest
import RedisS2Geo.Foundation.CellRegions
import RedisS2Geo.Foundation.Footprint
import RedisS2Geo.Foundation.Interleaving
import RedisS2Geo.Foundation.Keyspace
import RedisS2Geo.Foundation.Machine
import RedisS2Geo.Foundation.Projection
import RedisS2Geo.Foundation.Reading
import RedisS2Geo.Foundation.Scanning
import RedisS2Geo.Foundation.Sequencing
import RedisS2Geo.Foundation.TokenMachine
import RedisS2Geo.Source.Environment
import RedisS2Geo.Source.Parser
import RedisS2Geo.Source.Geo
import RedisS2Geo.Source.Index
import RedisS2Geo.Source.Module
import RedisS2Geo.Covering.Terms
import RedisS2Geo.Covering.Matching
import RedisS2Geo.Covering.Regions
import RedisS2Geo.Covering.Chain
import RedisS2Geo.Text.Tokens
import RedisS2Geo.Text.Scans
import RedisS2Geo.Text.PointScan
import RedisS2Geo.Text.PolygonMachine
import RedisS2Geo.Text.PolygonScan
import RedisS2Geo.Text.PointTexts
import RedisS2Geo.Store.Keys
import RedisS2Geo.Store.Operations
import RedisS2Geo.Store.Contents
import RedisS2Geo.Store.Commands
import RedisS2Geo.Store.Calls
import RedisS2Geo.Store.Locality
import RedisS2Geo.Store.Updates
import RedisS2Geo.Store.Represented
import RedisS2Geo.Store.MapMachine
import RedisS2Geo.Store.Runs
import RedisS2Geo.Guarantees.Searches
import RedisS2Geo.Guarantees.Coherence
import RedisS2Geo.Guarantees.Writes
import RedisS2Geo.Guarantees.Isolation
import RedisS2Geo.Guarantees.Clients
import RedisS2Geo.Guarantees.Grammar
import RedisS2Geo.Guarantees.Diagnostics
import RedisS2Geo.Guarantees.Coordinates
import RedisS2Geo.Guarantees.Bodies
import RedisS2Geo.Guarantees.Deletion
import RedisS2Geo.Guarantees.PointTerms
import RedisS2Geo.Guarantees.KeyNames
import RedisS2Geo.Store.Clearing
import RedisS2Geo.Store.Effects
import RedisS2Geo.Store.Types
import RedisS2Geo.Guarantees.ForeignValues
import RedisS2Geo.Store.Events
import RedisS2Geo.Guarantees.Registration
import RedisS2Geo.Guarantees.Sharding
import RedisS2Geo.Store.SpatialIndex
import RedisS2Geo.Guarantees.Refinement
import RedisS2Geo.Source.RedisTest
import RedisS2Geo.Store.SelfTest
import RedisS2Geo.Guarantees.Picture
import RedisS2Geo.Guarantees.Geometry
import RedisS2Geo.Foundation.Histories
import RedisS2Geo.Store.Provenance
import RedisS2Geo.Guarantees.AnyNames
import RedisS2Geo.Guarantees.RepeatedDeletion
import RedisS2Geo.Foundation.Clients
import RedisS2Geo.Guarantees.Independence
import RedisS2Geo.Foundation.LoopRelations
import RedisS2Geo.Guarantees.Uninitialised
import RedisS2Geo.Foundation.Logs
import RedisS2Geo.Store.Edits
import RedisS2Geo.Guarantees.Logs
import RedisS2Geo.Guarantees.Dumps
import RedisS2Geo.Covering.Sizes
import RedisS2Geo.Guarantees.Sizes
import RedisS2Geo.Guarantees.Endings
import RedisS2Geo.Guarantees.SelfTest
