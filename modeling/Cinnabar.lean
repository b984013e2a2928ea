import Cinnabar.Light.Relights
import Cinnabar.World.SubChunk
import Cinnabar.Stream.SchedulerRuns
import Cinnabar.Ingest.Session
import Cinnabar.Webrelay.Relay
import Cinnabar.Movement.InOrder
import Cinnabar.BlobCache.Unblocking
import Cinnabar.Updates.Runs
import Cinnabar.Residency.Membership
import Cinnabar.Residency.Retention
import Cinnabar.Ingest.Skipping
import Cinnabar.Meshing.Hidden
import Cinnabar.Movement.TeleportRun
import Cinnabar.Meshing.SectionFacts
import Cinnabar.Culling.GridMap
import Cinnabar.BlobCache.StoreRuns
import Cinnabar.Inventory.Assignment
import Cinnabar.Inventory.AllocationPlan
import Cinnabar.Item.Lens
import Cinnabar.Item.SameTree
import Cinnabar.Uploads.Fairness
import Cinnabar.Store.Accounting
import Cinnabar.Uploads.Migration
import Cinnabar.Publication.Runs
import Cinnabar.SessionWire.Transport
import Cinnabar.Authcache.Flights
import Cinnabar.ResourcePacks.Packs
import Cinnabar.FarTerrain.Tiles
import Cinnabar.FarTerrain.Files
import Cinnabar.Movement.Boosts
import Cinnabar.Stream.CandidateOrder
import Cinnabar.Uploads.FreeRanges
