import Joystream.Store
import Joystream.ContentService
import Joystream.Startup
import Joystream.Eviction
import Joystream.Ingestion
import Joystream.Interleaving
import Joystream.Tracking
import Joystream.Reservation
import Joystream.DeleteVideoAssets
import Joystream.SingleCall
import Joystream.Lifecycle
import Joystream.Progress
import Joystream.Restart
import Joystream.LeaderSetup
